import Vigil.Lib.Map
import Vigil.Lib.Text
import Vigil.Snapshot

/-!
# Flattening a snapshot into hub metrics

`flatten` turns a snapshot into the flat map of the `samples` frame. Metrics of
one mount carry it after a pipe (`disk.used_bytes|/`).
-/

namespace Vigil.Hub

open Vigil.Lib

def bytesCeiling : Nat := 2 ^ 41

def processesMax : Nat := 25

def gibToBytes (value : F64) : Nat := min (value.scale (1024 ^ 3)).asU64 bytesCeiling

/-- A `u64` as a metric value. -/
def num (n : Nat) : F64 := .fin (natToF64 n)

/-- Containerised mounts and snap loops, left out. -/
def skipMount (mount : String) : Bool :=
  Text.startsWith "/snap/" mount || Text.startsWith "/var/lib/docker/" mount ||
    Text.startsWith "/run/docker/" mount

def insertDisk (out : List (String × F64)) (d : DiskInfo) : List (String × F64) :=
  if d.mountpoint = "" then out
  else if skipMount d.mountpoint then out
  else
    let out := Map.insert s!"disk.total_bytes|{d.mountpoint}" (num (gibToBytes d.total)) out
    let out := Map.insert s!"disk.used_bytes|{d.mountpoint}" (num (gibToBytes d.used)) out
    Map.insert s!"disk.percent|{d.mountpoint}" d.percent out

def flattenCpu (cpu : Cpu) : List (String × F64) :=
  let out := Map.insert "cpu.usage" cpu.usage []
  let out := if cpu.freq.isZero then out else Map.insert "cpu.freq_mhz" cpu.freq out
  let out := match cpu.load with
    | some (l1, l5, l15) =>
      Map.insert "cpu.load_15m" l15 (Map.insert "cpu.load_5m" l5 (Map.insert "cpu.load_1m" l1 out))
    | none => out
  if cpu.temp.isFinite && !cpu.temp.isZero then Map.insert "cpu.temp_c" cpu.temp out else out

/-- The metrics without a dimension. -/
def flattenHost (snap : Snapshot) : List (String × F64) :=
  let out := flattenCpu snap.cpu
  let out := Map.insert "mem.total_bytes" (num (gibToBytes snap.mem.total)) out
  let out := Map.insert "mem.used_bytes" (num (gibToBytes snap.mem.used)) out
  let out := Map.insert "mem.free_bytes" (num (gibToBytes snap.mem.free)) out
  let out := Map.insert "mem.percent" snap.mem.percent out
  let out := Map.insert "disk.io.read_bytes_per_s" (num snap.diskIo.readBytesPerSec) out
  let out := Map.insert "disk.io.write_bytes_per_s" (num snap.diskIo.writeBytesPerSec) out
  let out := Map.insert "disk.io.read_iops" (num snap.diskIo.readIops) out
  let out := Map.insert "disk.io.write_iops" (num snap.diskIo.writeIops) out
  let out := Map.insert "net.rx_bytes_per_s" (num snap.network.rxBytesPerSec) out
  Map.insert "net.tx_bytes_per_s" (num snap.network.txBytesPerSec) out

def flatten (snap : Snapshot) : List (String × F64) :=
  snap.disks.foldl insertDisk (flattenHost snap)

theorem insertDisk_ne_nil {out : List (String × F64)} (h : out ≠ []) (d : DiskInfo) :
    insertDisk out d ≠ [] := by
  unfold insertDisk
  split
  · exact h
  · split
    · exact h
    · exact Map.insert_ne_nil _ _ _

theorem foldl_insertDisk_ne_nil {out : List (String × F64)} (h : out ≠ []) (ds : List DiskInfo) :
    ds.foldl insertDisk out ≠ [] := by
  induction ds generalizing out with
  | nil => exact h
  | cons d ds ih => exact ih (insertDisk_ne_nil h d)

/-- The metrics of a snapshot are never empty. -/
theorem flatten_ne_nil (snap : Snapshot) : flatten snap ≠ [] :=
  foldl_insertDisk_ne_nil (Map.insert_ne_nil _ _ _) _

end Vigil.Hub

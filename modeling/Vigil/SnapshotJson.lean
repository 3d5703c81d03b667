import Vigil.Lib.Codec
import Vigil.Snapshot

/-!
# The snapshot on the wire

The serialize derives of the snapshot's structs and of its three projections, as
codecs: each struct is an object with one entry for each field, in the order of
the struct.
-/

namespace Vigil

open Vigil.Lib

/-- `serialize_temp`: the integer `0` where there is no sensor. -/
def serializeTemp (v : F64) : Json := if v.isZero then .ofNat 0 else .ofF64 v

theorem asFloat_serializeTemp (v : F64) : Json.asFloat (serializeTemp v) = some v.wire := by
  cases v with
  | nan | inf b => rfl
  | fin q =>
    unfold serializeTemp
    split
    · next h =>
      obtain rfl : q = 0 := by simpa [F64.isZero] using h
      with_unfolding_all rfl
    · rfl

def tempCodec : Codec F64 :=
  ⟨serializeTemp, Json.asFloat, fun _ => True, F64.wire, fun v _ => asFloat_serializeTemp v,
    fun v => by cases v <;> rfl⟩

def u32 : Codec Nat := .uint 32 (by norm_num)

def u64 : Codec Nat := .uint 64 (by norm_num)

def Cpu.codec : Codec Cpu :=
  (Record.of Cpu.mk
    |>.field "usage" .float Cpu.usage
    |>.field "temp" tempCodec Cpu.temp
    |>.field "freq" .float Cpu.freq
    |>.field "cores" u32 Cpu.cores
    |>.field "load" (Codec.float.triple.option nofun) Cpu.load).codec
    (by decide) fun _ => by simp only [Record.of, Record.field, Codec.enc_wire]

def Mem.codec : Codec Mem :=
  (Record.of Mem.mk
    |>.field "total" .float Mem.total
    |>.field "used" .float Mem.used
    |>.field "free" .float Mem.free
    |>.field "percent" .float Mem.percent).codec
    (by decide) fun _ => by simp only [Record.of, Record.field, Codec.enc_wire]

def Disk.codec : Codec Disk :=
  (Record.of Disk.mk
    |>.field "total" .float Disk.total
    |>.field "used" .float Disk.used
    |>.field "free" .float Disk.free
    |>.field "percent" .float Disk.percent).codec
    (by decide) fun _ => by simp only [Record.of, Record.field, Codec.enc_wire]

def DiskInfo.codec : Codec DiskInfo :=
  (Record.of DiskInfo.mk
    |>.field "device" .str DiskInfo.device
    |>.field "mountpoint" .str DiskInfo.mountpoint
    |>.field "fstype" .str DiskInfo.fstype
    |>.field "total" .float DiskInfo.total
    |>.field "used" .float DiskInfo.used
    |>.field "free" .float DiskInfo.free
    |>.field "percent" .float DiskInfo.percent).codec
    (by decide) fun _ => by simp only [Record.of, Record.field, Codec.enc_wire]

def DiskIo.codec : Codec DiskIo :=
  (Record.of DiskIo.mk
    |>.field "read_bytes_per_sec" u64 DiskIo.readBytesPerSec
    |>.field "write_bytes_per_sec" u64 DiskIo.writeBytesPerSec
    |>.field "read_iops" u64 DiskIo.readIops
    |>.field "write_iops" u64 DiskIo.writeIops).codec
    (by decide) fun _ => by simp only [Record.of, Record.field, Codec.enc_wire]

def Throughput.codec : Codec Throughput :=
  (Record.of Throughput.mk
    |>.field "rx_bytes_per_sec" u64 Throughput.rxBytesPerSec
    |>.field "tx_bytes_per_sec" u64 Throughput.txBytesPerSec).codec
    (by decide) fun _ => by simp only [Record.of, Record.field, Codec.enc_wire]

def PlatformInfo.codec : Codec PlatformInfo :=
  (Record.of PlatformInfo.mk
    |>.field "distro" .str PlatformInfo.distro
    |>.field "kernel" .str PlatformInfo.kernel
    |>.field "uptime" .str PlatformInfo.uptime).codec
    (by decide) fun _ => by simp only [Record.of, Record.field, Codec.enc_wire]

def Process.codec : Codec Process :=
  (Record.of Process.mk
    |>.field "pid" u32 Process.pid
    |>.field "name" .str Process.name
    |>.field "username" .str Process.username
    |>.field "mem" .float Process.mem).codec
    (by decide) fun _ => by simp only [Record.of, Record.field, Codec.enc_wire]

def ProcessCpu.codec : Codec ProcessCpu :=
  (Record.of ProcessCpu.mk
    |>.field "pid" u32 ProcessCpu.pid
    |>.field "name" .str ProcessCpu.name
    |>.field "username" .str ProcessCpu.username
    |>.field "cpu" .float ProcessCpu.cpu).codec
    (by decide) fun _ => by simp only [Record.of, Record.field, Codec.enc_wire]

def NetIfaceStats.codec : Codec NetIfaceStats :=
  (Record.of NetIfaceStats.mk
    |>.field "mb_sent" .float NetIfaceStats.mbSent
    |>.field "mb_received" .float NetIfaceStats.mbReceived
    |>.field "pk_sent" u64 NetIfaceStats.pkSent
    |>.field "pk_received" u64 NetIfaceStats.pkReceived
    |>.field "error_in" u64 NetIfaceStats.errorIn
    |>.field "error_out" u64 NetIfaceStats.errorOut
    |>.field "dropin" u64 NetIfaceStats.dropin
    |>.field "dropout" u64 NetIfaceStats.dropout).codec
    (by decide) fun _ => by simp only [Record.of, Record.field, Codec.enc_wire]

/-! ## Projections -/

def HttpSystemView.codec : Codec HttpSystemView :=
  (Record.of HttpSystemView.mk
    |>.field "cpu" Cpu.codec HttpSystemView.cpu
    |>.field "mem" Mem.codec HttpSystemView.mem
    |>.field "disk" Disk.codec HttpSystemView.disk
    |>.field "disks" DiskInfo.codec.list HttpSystemView.disks
    |>.field "disk_io" DiskIo.codec HttpSystemView.diskIo
    |>.field "network" Throughput.codec HttpSystemView.network
    |>.field "user" .str HttpSystemView.user
    |>.field "platform" PlatformInfo.codec HttpSystemView.platform
    |>.field "processes" Process.codec.list HttpSystemView.processes
    |>.field "processes_metric" .str HttpSystemView.processesMetric
    |>.field "processes_by_cpu" ProcessCpu.codec.list HttpSystemView.processesByCpu).codec
    (by decide) fun _ => by simp only [Record.of, Record.field, Codec.enc_wire]

def WsSystemView.codec : Codec WsSystemView :=
  (Record.of WsSystemView.mk
    |>.field "cpu" Cpu.codec WsSystemView.cpu
    |>.field "mem" Mem.codec WsSystemView.mem
    |>.field "disk" Disk.codec WsSystemView.disk
    |>.field "disk_io" DiskIo.codec WsSystemView.diskIo
    |>.field "network" Throughput.codec WsSystemView.network
    |>.field "uptime" .str WsSystemView.uptime
    |>.field "processes" Process.codec.list WsSystemView.processes
    |>.field "processes_metric" .str WsSystemView.processesMetric
    |>.field "processes_by_cpu" ProcessCpu.codec.list WsSystemView.processesByCpu).codec
    (by decide) fun _ => by simp only [Record.of, Record.field, Codec.enc_wire]

def NetworkView.codec : Codec NetworkView :=
  (Record.of NetworkView.mk
    |>.field "interfaces" Codec.str.list NetworkView.interfaces
    |>.field "statistics" NetIfaceStats.codec.map NetworkView.statistics).codec
    (by decide) fun _ => by simp only [Record.of, Record.field, Codec.enc_wire]

/-! ## What a reader gets -/

/-- The integers of a snapshot are in the range of their types. -/
structure Snapshot.InRange (s : Snapshot) : Prop where
  cores : s.cpu.cores < 2 ^ 32
  diskIo : DiskIo.codec.Fits s.diskIo
  network : Throughput.codec.Fits s.network
  processes : ∀ p ∈ s.processes, p.pid < 2 ^ 32
  processesByCpu : ∀ p ∈ s.processesByCpu, p.pid < 2 ^ 32
  networkStats : ∀ kv ∈ s.networkStats, NetIfaceStats.codec.Fits kv.2

/-- What the wire keeps of a snapshot: its doubles that are not finite all become one. -/
def Snapshot.wire (s : Snapshot) : Snapshot where
  cpu := Cpu.codec.wire s.cpu
  mem := Mem.codec.wire s.mem
  disk := Disk.codec.wire s.disk
  disks := DiskInfo.codec.list.wire s.disks
  diskIo := s.diskIo
  network := s.network
  user := s.user
  platform := s.platform
  uptime := s.uptime
  processes := Process.codec.list.wire s.processes
  processesMetric := s.processesMetric
  processesByCpu := ProcessCpu.codec.list.wire s.processesByCpu
  interfaces := s.interfaces
  networkStats := NetIfaceStats.codec.map.wire s.networkStats

namespace Snapshot

variable {s t : Snapshot}

theorem InRange.cpu_fits (h : s.InRange) : Cpu.codec.Fits s.cpu := by
  refine ⟨⟨⟨⟨⟨trivial, trivial⟩, trivial⟩, trivial⟩, h.cores⟩, fun l _ => ?_⟩
  exact ⟨trivial, trivial, trivial⟩

theorem mem_fits (m : Mem) : Mem.codec.Fits m := by
  exact ⟨⟨⟨⟨trivial, trivial⟩, trivial⟩, trivial⟩, trivial⟩

theorem disk_fits (d : Disk) : Disk.codec.Fits d := by
  exact ⟨⟨⟨⟨trivial, trivial⟩, trivial⟩, trivial⟩, trivial⟩

theorem disks_fits (ds : List DiskInfo) : DiskInfo.codec.list.Fits ds := by
  intro d _
  exact ⟨⟨⟨⟨⟨⟨⟨trivial, trivial⟩, trivial⟩, trivial⟩, trivial⟩, trivial⟩, trivial⟩, trivial⟩

theorem InRange.processes_fits (h : s.InRange) : Process.codec.list.Fits s.processes := by
  intro p hp
  exact ⟨⟨⟨⟨trivial, h.processes p hp⟩, trivial⟩, trivial⟩, trivial⟩

theorem InRange.processesByCpu_fits (h : s.InRange) :
    ProcessCpu.codec.list.Fits s.processesByCpu := by
  intro p hp
  exact ⟨⟨⟨⟨trivial, h.processesByCpu p hp⟩, trivial⟩, trivial⟩, trivial⟩

theorem InRange.httpView_fits (h : s.InRange) : HttpSystemView.codec.Fits s.httpView :=
  ⟨⟨⟨⟨⟨⟨⟨⟨⟨⟨⟨trivial, h.cpu_fits⟩, mem_fits _⟩, disk_fits _⟩, disks_fits _⟩, h.diskIo⟩, h.network⟩,
    trivial⟩, ⟨⟨⟨trivial, trivial⟩, trivial⟩, trivial⟩⟩, h.processes_fits⟩, trivial⟩,
    h.processesByCpu_fits⟩

theorem InRange.wsView_fits (h : s.InRange) : WsSystemView.codec.Fits s.wsView :=
  ⟨⟨⟨⟨⟨⟨⟨⟨⟨trivial, h.cpu_fits⟩, mem_fits _⟩, disk_fits _⟩, h.diskIo⟩, h.network⟩, trivial⟩,
    h.processes_fits⟩, trivial⟩, h.processesByCpu_fits⟩

theorem InRange.networkView_fits (h : s.InRange) : NetworkView.codec.Fits s.networkView :=
  ⟨⟨trivial, fun _ _ => trivial⟩, h.networkStats⟩

/-- Nothing but the doubles changes on the wire. -/
theorem httpView_wire (s : Snapshot) : HttpSystemView.codec.wire s.httpView = s.wire.httpView := rfl

theorem wsView_wire (s : Snapshot) : WsSystemView.codec.wire s.wsView = s.wire.wsView := rfl

theorem networkView_wire (s : Snapshot) :
    NetworkView.codec.wire s.networkView = s.wire.networkView := by
  have hi : Codec.str.list.wire s.interfaces = s.interfaces := List.map_id _
  show NetworkView.mk (Codec.str.list.wire s.interfaces) _ = _
  rw [hi]
  rfl

theorem eq_of_views (hh : s.httpView = t.httpView) (hw : s.wsView = t.wsView)
    (hn : s.networkView = t.networkView) : s = t := by
  simp only [httpView, wsView, networkView, HttpSystemView.mk.injEq, WsSystemView.mk.injEq,
    NetworkView.mk.injEq] at hh hw hn
  cases s
  cases t
  simp_all

end Snapshot

/-- **The wire format of the snapshot.** Each of the three payloads reads back as its projection,
and the three together determine the snapshot up to doubles that are not finite. -/
theorem snapshot_wire_exact {s t : Snapshot} (hs : s.InRange) (ht : t.InRange) :
    (HttpSystemView.codec.dec (HttpSystemView.codec.enc s.httpView) = some s.wire.httpView ∧
      WsSystemView.codec.dec (WsSystemView.codec.enc s.wsView) = some s.wire.wsView ∧
      NetworkView.codec.dec (NetworkView.codec.enc s.networkView) = some s.wire.networkView) ∧
    (HttpSystemView.codec.enc s.httpView = HttpSystemView.codec.enc t.httpView ∧
      WsSystemView.codec.enc s.wsView = WsSystemView.codec.enc t.wsView ∧
      NetworkView.codec.enc s.networkView = NetworkView.codec.enc t.networkView ↔
        s.wire = t.wire) := by
  refine ⟨⟨HttpSystemView.codec.dec_enc _ hs.httpView_fits,
    WsSystemView.codec.dec_enc _ hs.wsView_fits, ?_⟩, ?_⟩
  · rw [NetworkView.codec.dec_enc _ hs.networkView_fits, Snapshot.networkView_wire]
  · rw [HttpSystemView.codec.enc_eq_iff hs.httpView_fits ht.httpView_fits,
      WsSystemView.codec.enc_eq_iff hs.wsView_fits ht.wsView_fits,
      NetworkView.codec.enc_eq_iff hs.networkView_fits ht.networkView_fits,
      Snapshot.networkView_wire, Snapshot.networkView_wire]
    constructor
    · rintro ⟨hh, hw, hn⟩
      exact Snapshot.eq_of_views hh hw hn
    · intro h
      exact ⟨congrArg Snapshot.httpView h, congrArg Snapshot.wsView h,
        congrArg Snapshot.networkView h⟩

def withUsage (usage : F64) : Snapshot :=
  { Snapshot.default with cpu := { Snapshot.default.cpu with usage } }

theorem withUsage_inRange (usage : F64) : (withUsage usage).InRange := by
  have h64 : 0 < 2 ^ 64 := by norm_num
  exact ⟨Nat.two_pow_pos 32, ⟨⟨⟨⟨trivial, h64⟩, h64⟩, h64⟩, h64⟩, ⟨⟨trivial, h64⟩, h64⟩, nofun,
    nofun, nofun⟩

/-- A reader cannot tell NaN from an infinity, but both from a number. -/
theorem snapshot_wire_exact_usage :
    HttpSystemView.codec.enc (withUsage .nan).httpView =
        HttpSystemView.codec.enc (withUsage (.inf true)).httpView ∧
      WsSystemView.codec.dec (WsSystemView.codec.enc (withUsage (.fin 7)).wsView) =
        some (withUsage (.fin 7)).wsView :=
  ⟨((snapshot_wire_exact (withUsage_inRange .nan) (withUsage_inRange (.inf true))).2.mpr rfl).1,
    (snapshot_wire_exact (withUsage_inRange (.fin 7)) (withUsage_inRange .nan)).1.2.1⟩

end Vigil

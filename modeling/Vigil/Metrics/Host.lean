import Vigil.Snapshot

/-!
# The host as the collectors see it

`Reading` is what the host answers during one refresh, or while a sampler state
is created: what `sysinfo` would read if asked to, the files under `/proc`,
`/sys` and `/etc`, and the clock at the two places that read it. A collector
takes from it what it reads; what `sysinfo` holds from an earlier refresh is
part of the sampler state (`System`, and the lists of disks, networks,
components and users).

`sysinfo` and the maps of the collectors iterate in an order of their own. The
lists of a reading are in that order, and `HashOrder` is the order in which a
map gives back its keys.
-/

namespace Vigil.Metrics

open Vigil.Lib

/-! ## Rounding -/

theorem monotone_roundAt {n : ℚ} (hn : 0 ≤ n) :
    Monotone fun x : ℚ => (roundHalfAway (x * n) : ℚ) / n := by
  intro p q h
  have hr : roundHalfAway (p * n) ≤ roundHalfAway (q * n) :=
    roundHalfAway_mono (mul_le_mul_of_nonneg_right h hn)
  exact div_le_div_of_nonneg_right (Int.cast_le.mpr hr) hn

/-- `(x * 100.0).round() / 100.0`. -/
def round2 (x : ℚ) : ℚ := roundHalfAway (x * 100) / 100

theorem round2_mono : Monotone round2 := monotone_roundAt (by norm_num)

/-- `(x * 10.0).round() / 10.0`. -/
def round1 (x : ℚ) : ℚ := roundHalfAway (x * 10) / 10

theorem round1_mono : Monotone round1 := monotone_roundAt (by norm_num)

def bytesToGib (x : Nat) : ℚ := round2 (x / 1024 ^ 3)

/-! ## What `sysinfo` reads -/

structure SysProcess where
  name : String
  memory : Nat
  cpuUsage : ℚ
  userId : Option Nat
  /-- `thread_kind` is set -/
  isThread : Bool

structure Component where
  label : String
  temperature : F64

/-- A mounted disk, with the space `sysinfo` saw when it listed it. -/
structure Mount where
  device : String
  fstype : String
  mountpoint : String
  totalSpace : Nat
  availableSpace : Nat

/-- The counters of a network interface since boot. -/
structure NetData where
  received : Nat
  transmitted : Nat
  packetsReceived : Nat
  packetsTransmitted : Nat
  errorsOnReceived : Nat
  errorsOnTransmitted : Nat

structure Statvfs where
  blocks : Nat
  bfree : Nat
  bavail : Nat
  frsize : Nat

/-- An entry of `/sys/class/thermal`, its two files `none` where they cannot be read. -/
structure ThermalZone where
  name : String
  zoneType : Option String
  temp : Option String

/-! ## What `collect_io` reads -/

/-- The clock, and the two places `read_diskstats` looks at; `none` where the read fails. -/
structure IoReading where
  now : ℚ
  diskstats : Option String
  sysBlock : Option (List String)

/-! ## Orders of a hash map -/

/-- The order in which a map iterates, given its keys in the order of their insertion. -/
structure HashOrder where
  order : List String → List String
  perm : ∀ keys, (order keys).Perm keys

def HashOrder.insertion : HashOrder := ⟨id, fun _ => .rfl⟩

/-! ## The reading -/

structure Reading where
  globalCpuUsage : F64
  /-- the frequency of each CPU, in MHz -/
  frequencies : List Nat
  totalMemory : Nat
  availableMemory : Nat
  processes : List (Nat × SysProcess)
  users : List (Nat × String)
  sensors : List String
  /-- the temperature of a listed sensor, by its place in the list -/
  temperature : Nat → F64
  mounts : List Mount
  interfaces : List String
  /-- the counters of an interface by its name, zeros where it is gone -/
  netData : String → NetData
  statvfs : String → Option Statvfs
  filesystems : Option String
  diskIo : IoReading
  netNow : ℚ
  netDev : Option String
  thermalZones : Option (List ThermalZone)
  loadAvg : Option (F64 × F64 × F64)
  osRelease : Option String
  systemName : Option String
  kernelVersion : Option String
  uptime : Nat
  username : String
  ownPid : Nat
  /-- `/proc/<pid>/smaps_rollup` -/
  smapsRollup : Nat → Option String
  /-- `/proc/<pid>` exists -/
  procExists : Nat → Bool
  memOrder : HashOrder
  cpuOrder : HashOrder

/-- A host on which nothing can be seen but the user. -/
def Reading.quiet : Reading where
  globalCpuUsage := .fin 0
  frequencies := []
  totalMemory := 0
  availableMemory := 0
  processes := []
  users := []
  sensors := []
  temperature _ := .nan
  mounts := []
  interfaces := []
  netData _ := ⟨0, 0, 0, 0, 0, 0⟩
  statvfs _ := none
  filesystems := none
  diskIo := ⟨0, none, none⟩
  netNow := 0
  netDev := none
  thermalZones := none
  loadAvg := none
  osRelease := none
  systemName := none
  kernelVersion := none
  uptime := 0
  username := "root"
  ownPid := 1
  smapsRollup _ := none
  procExists _ := false
  memOrder := .insertion
  cpuOrder := .insertion

/-- `sysinfo::System`, as of its last refreshes. -/
structure System where
  globalCpuUsage : F64
  frequencies : List Nat
  totalMemory : Nat
  availableMemory : Nat
  processes : List (Nat × SysProcess)

namespace System

/-- `System::new_with_specifics` on CPUs, memory and processes. -/
def new (r : Reading) : System :=
  ⟨r.globalCpuUsage, r.frequencies, r.totalMemory, r.availableMemory, r.processes⟩

variable (s : System) (r : Reading)

def refreshCpuUsage : System := { s with globalCpuUsage := r.globalCpuUsage }

def refreshCpuFrequency : System := { s with frequencies := r.frequencies }

def refreshMemory : System :=
  { s with totalMemory := r.totalMemory, availableMemory := r.availableMemory }

def refreshProcesses : System := { s with processes := r.processes }

end System

/-! ## Lists that `sysinfo` refreshes -/

/-- `Components::new_with_refreshed_list`. -/
def listComponents (r : Reading) : List Component :=
  r.sensors.mapIdx fun i label => ⟨label, r.temperature i⟩

/-- `Components::refresh`: the listed sensors, read again. -/
def refreshComponents (cs : List Component) (r : Reading) : List Component :=
  cs.mapIdx fun i c => ⟨c.label, r.temperature i⟩

/-- `Networks::new_with_refreshed_list`. -/
def listNetworks (r : Reading) : List (String × NetData) :=
  r.interfaces.map fun name => (name, r.netData name)

/-- `Networks::refresh`: the counters of the interfaces that are listed, and no others. -/
def refreshNetworks (ns : List (String × NetData)) (r : Reading) : List (String × NetData) :=
  ns.map fun n => (n.1, r.netData n.1)

end Vigil.Metrics

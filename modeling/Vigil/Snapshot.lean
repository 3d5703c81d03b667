import Vigil.Lib.Rust

/-!
# The snapshot

The data model one refresh produces, and its three borrowed projections: the
payloads of `GET /system`, of a WebSocket frame and of `GET /network`. Maps
keyed by interface name are lists of pairs in ascending order of name, as a
`BTreeMap` iterates.
-/

namespace Vigil

open Vigil.Lib

structure Cpu where
  usage : F64
  temp : F64
  freq : F64
  cores : Nat
  load : Option (F64 × F64 × F64)
  deriving DecidableEq

structure Mem where
  total : F64
  used : F64
  free : F64
  percent : F64
  deriving DecidableEq

structure Disk where
  total : F64
  used : F64
  free : F64
  percent : F64
  deriving DecidableEq

structure DiskInfo where
  device : String
  mountpoint : String
  fstype : String
  total : F64
  used : F64
  free : F64
  percent : F64
  deriving DecidableEq

structure DiskIo where
  readBytesPerSec : Nat
  writeBytesPerSec : Nat
  readIops : Nat
  writeIops : Nat
  deriving DecidableEq

structure Throughput where
  rxBytesPerSec : Nat
  txBytesPerSec : Nat
  deriving DecidableEq

structure PlatformInfo where
  distro : String
  kernel : String
  uptime : String
  deriving DecidableEq

structure Process where
  pid : Nat
  name : String
  username : String
  mem : F64
  deriving DecidableEq

structure ProcessCpu where
  pid : Nat
  name : String
  username : String
  cpu : F64
  deriving DecidableEq

structure NetIfaceStats where
  mbSent : F64
  mbReceived : F64
  pkSent : Nat
  pkReceived : Nat
  errorIn : Nat
  errorOut : Nat
  dropin : Nat
  dropout : Nat
  deriving DecidableEq

structure Snapshot where
  cpu : Cpu
  mem : Mem
  disk : Disk
  disks : List DiskInfo
  diskIo : DiskIo
  network : Throughput
  user : String
  platform : PlatformInfo
  uptime : String
  processes : List Process
  processesMetric : String
  processesByCpu : List ProcessCpu
  interfaces : List String
  networkStats : List (String × NetIfaceStats)
  deriving DecidableEq

/-! ## `Default` -/

def Disk.default : Disk := ⟨.fin 0, .fin 0, .fin 0, .fin 0⟩

def DiskIo.default : DiskIo := ⟨0, 0, 0, 0⟩

def Throughput.default : Throughput := ⟨0, 0⟩

def Snapshot.default : Snapshot where
  cpu := ⟨.fin 0, .fin 0, .fin 0, 0, none⟩
  mem := ⟨.fin 0, .fin 0, .fin 0, .fin 0⟩
  disk := .default
  disks := []
  diskIo := .default
  network := .default
  user := ""
  platform := ⟨"", "", ""⟩
  uptime := ""
  processes := []
  processesMetric := ""
  processesByCpu := []
  interfaces := []
  networkStats := []

/-! ## Projections -/

/-- `GET /system`. -/
structure HttpSystemView where
  cpu : Cpu
  mem : Mem
  disk : Disk
  disks : List DiskInfo
  diskIo : DiskIo
  network : Throughput
  user : String
  platform : PlatformInfo
  processes : List Process
  processesMetric : String
  processesByCpu : List ProcessCpu

/-- A WebSocket frame: no disks, user or platform, and the uptime at the top level. -/
structure WsSystemView where
  cpu : Cpu
  mem : Mem
  disk : Disk
  diskIo : DiskIo
  network : Throughput
  uptime : String
  processes : List Process
  processesMetric : String
  processesByCpu : List ProcessCpu

/-- `GET /network`. -/
structure NetworkView where
  interfaces : List String
  statistics : List (String × NetIfaceStats)

namespace Snapshot

def httpView (s : Snapshot) : HttpSystemView where
  cpu := s.cpu
  mem := s.mem
  disk := s.disk
  disks := s.disks
  diskIo := s.diskIo
  network := s.network
  user := s.user
  platform := s.platform
  processes := s.processes
  processesMetric := s.processesMetric
  processesByCpu := s.processesByCpu

def wsView (s : Snapshot) : WsSystemView where
  cpu := s.cpu
  mem := s.mem
  disk := s.disk
  diskIo := s.diskIo
  network := s.network
  uptime := s.uptime
  processes := s.processes
  processesMetric := s.processesMetric
  processesByCpu := s.processesByCpu

def networkView (s : Snapshot) : NetworkView where
  interfaces := s.interfaces
  statistics := s.networkStats

end Snapshot

end Vigil

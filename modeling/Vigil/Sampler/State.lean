import Vigil.Metrics.Disk
import Vigil.Metrics.Net
import Vigil.Metrics.Process
import Vigil.Metrics.System

/-!
# The sampler state and its refresh

`SamplerState.refresh` is one refresh: cheap readings every time, the process
scan every 5th time, the mount table every 60th time, and the snapshot built
from all of them. It takes the reading of the host and the process-wide statics.

`refresh_spec` says what a refresh does to the parts that are cached over
several refreshes, and what it puts of them into the snapshot.
-/

namespace Vigil

open Vigil.Lib Vigil.Metrics

def processScanEvery : Nat := 5

def diskListRefreshEvery : Nat := 60

structure SamplerState where
  sys : System
  disks : List Mount
  networks : List (String × NetData)
  components : List Component
  users : List (Nat × String)
  cores : Nat
  diskIoPrev : Option DiskIoPrev
  netIoPrev : Option NetIoPrev
  tick : Nat
  cachedProcesses : List Process
  cachedProcessesMetric : String
  cachedProcessesByCpu : List ProcessCpu

namespace SamplerState

def new (r : Reading) : SamplerState where
  sys := .new r
  disks := r.mounts
  networks := listNetworks r
  components := listComponents r
  users := r.users
  cores := r.frequencies.length
  diskIoPrev := none
  netIoPrev := none
  tick := 0
  cachedProcesses := []
  cachedProcessesMetric := "rss"
  cachedProcessesByCpu := []

variable (st : SamplerState) (g : Statics) (r : Reading)

def refreshCounters : SamplerState :=
  { st with
    sys := (st.sys.refreshCpuUsage r).refreshMemory r
    networks := refreshNetworks st.networks r
    components := refreshComponents st.components r }

def scanProcesses : SamplerState × Statics :=
  let sys := (st.sys.refreshCpuFrequency r).refreshProcesses r
  let pss := getOrInit g.pssSupported (detectPss r sys)
  ({ st with
      sys := sys
      users := r.users
      cachedProcesses := collectTop r sys r.users pss.1
      cachedProcessesMetric := processMetricLabel pss.1
      cachedProcessesByCpu := collectTopCpu r sys r.users },
    { g with pssSupported := pss.2 })

def scanDue : Bool := st.tick = 0 || st.tick % processScanEvery = 0

def listDue : Bool := st.tick = 0 || st.tick % diskListRefreshEvery = 0

def collect : Snapshot × SamplerState × Statics :=
  let io := collectIo st.diskIoPrev r.diskIo
  let net := collectThroughput st.networks st.netIoPrev r.netNow
  let plat := collectPlatform r g
  let user := collectUser r plat.2
  ({ cpu := collectCpu r st.sys st.components st.cores
     mem := collectMem st.sys
     disk := collectRoot r st.disks
     disks := collectAll r st.disks
     diskIo := io.1
     network := net.1
     user := user.1
     platform := plat.1
     uptime := plat.1.uptime
     processes := st.cachedProcesses
     processesMetric := st.cachedProcessesMetric
     processesByCpu := st.cachedProcessesByCpu
     interfaces := interfaceNames st.networks
     networkStats := statistics r st.networks },
    { st with diskIoPrev := io.2, netIoPrev := net.2 }, user.2)

/-- The process scan, when it is due. -/
def scanPhase : SamplerState × Statics := if st.scanDue then st.scanProcesses g r else (st, g)

/-- The rescan of the mount table, when it is due. -/
def listPhase : SamplerState := if st.listDue then { st with disks := r.mounts } else st

def nextTick : SamplerState := { st with tick := wrapAdd st.tick 1 }

def refresh : Snapshot × SamplerState × Statics :=
  let scanned := (st.refreshCounters r).scanPhase g r
  (scanned.1.listPhase r).nextTick.collect scanned.2 r

end SamplerState

/-! ## What is cached -/

/-- The three results of one process scan. -/
structure ProcessScan where
  processes : List Process
  metric : String
  byCpu : List ProcessCpu

/-- What one refresh is given. -/
structure Refresh where
  statics : Statics
  reading : Reading

/-- The process scan of the host as a refresh reads it. -/
def Refresh.scan (x : Refresh) : ProcessScan :=
  let sys := System.new x.reading
  let pss := x.statics.pssSupported.getD (detectPss x.reading sys)
  ⟨collectTop x.reading sys x.reading.users pss, processMetricLabel pss,
    collectTopCpu x.reading sys x.reading.users⟩

def SamplerState.cached (st : SamplerState) : ProcessScan :=
  ⟨st.cachedProcesses, st.cachedProcessesMetric, st.cachedProcessesByCpu⟩

def Snapshot.scan (s : Snapshot) : ProcessScan := ⟨s.processes, s.processesMetric, s.processesByCpu⟩

namespace SamplerState

variable (st : SamplerState) (g : Statics) (r : Reading)

@[simp] theorem scanPhase_tick : (st.scanPhase g r).1.tick = st.tick := by
  unfold scanPhase; split <;> rfl

@[simp] theorem scanPhase_disks : (st.scanPhase g r).1.disks = st.disks := by
  unfold scanPhase; split <;> rfl

/-- The counters of `sysinfo` and the process scan together read the whole system anew. -/
theorem scanPhase_cached : ((st.refreshCounters r).scanPhase g r).1.cached =
    if st.scanDue then (Refresh.mk g r).scan else st.cached := by
  unfold scanPhase
  rw [show (st.refreshCounters r).scanDue = st.scanDue from rfl]
  split <;> rfl

@[simp] theorem listPhase_tick : (st.listPhase r).tick = st.tick := by
  unfold listPhase; split <;> rfl

@[simp] theorem listPhase_cached : (st.listPhase r).cached = st.cached := by
  unfold listPhase; split <;> rfl

theorem listPhase_disks : (st.listPhase r).disks = if st.listDue then r.mounts else st.disks := by
  unfold listPhase; split <;> rfl

/-! The collectors and the tick leave what is cached alone. -/

@[simp] theorem collect_tick : (st.collect g r).2.1.tick = st.tick := rfl

@[simp] theorem collect_cached : (st.collect g r).2.1.cached = st.cached := rfl

@[simp] theorem collect_disks : (st.collect g r).2.1.disks = st.disks := rfl

@[simp] theorem nextTick_tick : st.nextTick.tick = wrapAdd st.tick 1 := rfl

@[simp] theorem nextTick_cached : st.nextTick.cached = st.cached := rfl

@[simp] theorem nextTick_disks : st.nextTick.disks = st.disks := rfl

/-- What a refresh does to the cached parts, and what the snapshot takes of them. -/
structure RefreshSpec (x : Refresh) (snap : Snapshot) (st' : SamplerState) : Prop where
  tick : st'.tick = wrapAdd st.tick 1
  cached : st'.cached = if st.scanDue then x.scan else st.cached
  disks : st'.disks = if st.listDue then x.reading.mounts else st.disks
  scan : snap.scan = st'.cached
  root : snap.disk = collectRoot x.reading st'.disks
  all : snap.disks = collectAll x.reading st'.disks

theorem refresh_spec : st.RefreshSpec ⟨g, r⟩ (st.refresh g r).1 (st.refresh g r).2.1 := by
  have hlist : ((st.refreshCounters r).scanPhase g r).1.listDue = st.listDue := by
    unfold listDue
    rw [scanPhase_tick]
    rfl
  refine ⟨?_, ?_, ?_, rfl, rfl, rfl⟩
  · rw [refresh, collect_tick, nextTick_tick, listPhase_tick, scanPhase_tick]
    rfl
  · rw [refresh, collect_cached, nextTick_cached, listPhase_cached, scanPhase_cached]
  · rw [refresh, collect_disks, nextTick_disks, listPhase_disks, hlist, scanPhase_disks]
    rfl

/-- The guard for tick 0 adds nothing: 0 is a multiple. -/
theorem scanDue_eq : st.scanDue = decide (st.tick % processScanEvery = 0) := by
  unfold scanDue
  by_cases h : st.tick = 0 <;> simp [h]

theorem listDue_eq : st.listDue = decide (st.tick % diskListRefreshEvery = 0) := by
  unfold listDue
  by_cases h : st.tick = 0 <;> simp [h]

end SamplerState

end Vigil

import Vigil.Lib.Map
import Vigil.Lib.Text
import Vigil.Metrics.Host

/-!
# The process tables

The collectors of `process.rs`: the ten process groups with the most memory,
by PSS where the host lets us read it and by RSS otherwise, and the ten with
the most CPU. A group is what runs under one display name.
-/

namespace Vigil.Metrics

open Vigil.Lib

def topN : Nat := 10

/-- `/proc/<pid>/smaps_rollup`: the number after `Pss:`. -/
def readPssKb (r : Reading) (pid : Nat) : Option Nat := do
  let raw ← r.smapsRollup pid
  let rest ← (Text.lines raw.toList).findSome? (Text.stripPrefix "Pss:")
  let val ← (Text.splitWhitespace (Text.trim rest)).head?
  Text.parseU64 val

/-- The first of the pids that has not exited decides. -/
def detectPssLoop (r : Reading) : List Nat → Bool
  | [] => false
  | p :: ps =>
    match readPssKb r p with
    | some _ => true
    | none => if r.procExists p then false else detectPssLoop r ps

def detectPss (r : Reading) (sys : System) : Bool :=
  let pids := (sys.processes.map Prod.fst).filter (· ≠ r.ownPid)
  detectPssLoop r (pids.mergeSort (· ≤ ·))

def processMetricLabel (pss : Bool) : String := if pss then "pss" else "rss"

def displayName (p : SysProcess) : String := if p.name = "" then "unknown" else p.name

def username (users : List (Nat × String)) (p : SysProcess) : String :=
  ((p.userId.bind fun uid => users.find? (·.1 = uid)).map Prod.snd).getD ""

/-! ## Groups -/

structure Aggregated where
  memMb : ℚ
  pids : List Nat
  usernames : List String

structure AggregatedCpu where
  cpuPct : ℚ
  pid : Nat
  usernames : List String

/-- Add a resolved user name to the set of a group. -/
def addUsername (name : String) (names : List String) : List String :=
  if name = "" then names else Map.insertKey name names

/-- The processes that are no threads. -/
def mainProcesses (sys : System) : List (Nat × SysProcess) :=
  sys.processes.filter fun p => !p.2.isThread

def groupByName (sys : System) (users : List (Nat × String)) : List (String × Aggregated) :=
  (mainProcesses sys).foldl (fun m (pid, p) =>
    Map.upsert (displayName p) (⟨0, [], []⟩ : Aggregated) (fun e =>
      { memMb := e.memMb + p.memory / (1024 * 1024)
        pids := e.pids ++ [pid]
        usernames := addUsername (username users p) e.usernames }) m) []

def groupByNameCpu (sys : System) (users : List (Nat × String)) : List (String × AggregatedCpu) :=
  (mainProcesses sys).foldl (fun m (pid, p) =>
    Map.upsert (displayName p) (⟨0, 0, []⟩ : AggregatedCpu) (fun e =>
      { cpuPct := e.cpuPct + p.cpuUsage
        pid := if e.pid = 0 || 0 < p.cpuUsage then pid else e.pid
        usernames := addUsername (username users p) e.usernames }) m) []

/-- `by_name.into_iter()`. -/
def HashOrder.iter {α : Type} (o : HashOrder) (m : List (String × α)) : List (String × α) :=
  (o.order (m.map Prod.fst)).filterMap fun k => m.find? (·.1 = k)

/-- `sort_by`, stable, the largest first. -/
def sortDesc {α : Type} (key : α → ℚ) (l : List (String × α)) : List (String × α) :=
  l.mergeSort fun a b => key b.2 ≤ key a.2

def groupPssMb (r : Reading) (sys : System) (agg : Aggregated) : ℚ :=
  let bytes pid :=
    match readPssKb r pid with
    | some kb => satMul kb 1024
    | none => ((sys.processes.find? (·.1 = pid)).map (·.2.memory)).getD 0
  ((agg.pids.foldl (fun sum pid => satAdd sum (bytes pid)) 0 : Nat) : ℚ) / (1024 * 1024)

/-- The streaming top ten by PSS, over groups that come by falling RSS. -/
def pssLoop (pssMb : Aggregated → ℚ) :
    List (String × Aggregated) → List (String × Aggregated) → List (String × Aggregated)
  | top, [] => top
  | top, (name, agg) :: rest =>
    if top.length = topN && top[topN - 1]?.any (fun t => agg.memMb ≤ t.2.memMb) then top
    else
      let agg := { agg with memMb := pssMb agg }
      let top := sortDesc Aggregated.memMb (top ++ [(name, agg)])
      pssLoop pssMb (if topN < top.length then top.dropLast else top) rest

def collectTop (r : Reading) (sys : System) (users : List (Nat × String)) (pss : Bool) :
    List Process :=
  let entries := sortDesc Aggregated.memMb (r.memOrder.iter (groupByName sys users))
  let final := if pss then pssLoop (groupPssMb r sys) [] entries else entries.take topN
  final.map fun (name, agg) =>
    ⟨agg.pids.headD 0, name, Text.join ", " agg.usernames, .fin (round2 agg.memMb)⟩

def collectTopCpu (r : Reading) (sys : System) (users : List (Nat × String)) : List ProcessCpu :=
  let entries := sortDesc AggregatedCpu.cpuPct (r.cpuOrder.iter (groupByNameCpu sys users))
  (entries.take topN).map fun (name, agg) =>
    ⟨agg.pid, name, Text.join ", " agg.usernames, .fin (round2 agg.cpuPct)⟩

end Vigil.Metrics

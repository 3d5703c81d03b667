import Mathlib.Algebra.BigOperators.Group.List.Basic
import Mathlib.Data.List.Dedup
import Vigil.Lib.Top
import Vigil.Metrics.Process

/-!
# Process groups without an order

What the process tables show, said without the maps that compute it: the groups
of a process table are its display names, and a group has a sum for each field
and a set of user names. `IsTable` says that rows are the ten groups with the
largest values, and `process_tables_exact` that the collectors return such rows
whatever the order of the maps.
-/

namespace Vigil.Metrics

open Vigil.Lib

def nameOf (p : Nat × SysProcess) : String := displayName p.2

/-- The display names of the processes that are no threads. -/
def groupNames (sys : System) : List String := ((mainProcesses sys).map nameOf).dedup

/-- The processes of a group, in the order of the process table. -/
def processesOf (sys : System) (name : String) : List (Nat × SysProcess) :=
  Map.groupOf nameOf (mainProcesses sys) name

def groupSum (f : SysProcess → ℚ) (sys : System) (name : String) : ℚ :=
  ((processesOf sys name).map fun p => f p.2).sum

/-- The user names of a group that are resolved, each once and in order. -/
def groupUsers (sys : System) (users : List (Nat × String)) (name : String) : List String :=
  (((processesOf sys name).map fun p => username users p.2).filter (· ≠ "")).dedup.mergeSort (· ≤ ·)

/-- A row of a process table without its pid: name, user names, value. -/
abbrev Row := String × String × F64

/-- The rows are the ten groups with the largest values `v`. -/
structure IsTable (v : String → ℚ) (sys : System) (users : List (Nat × String))
    (rows : List Row) : Prop where
  length : rows.length = min topN (groupNames sys).length
  nodup : (rows.map (·.1)).Nodup
  row : ∀ x ∈ rows, x.1 ∈ groupNames sys ∧ x.2.1 = Text.join ", " (groupUsers sys users x.1) ∧
    x.2.2 = .fin (round2 (v x.1))
  falling : rows.Pairwise fun x y => v y.1 ≤ v x.1
  rounded : rows.Pairwise fun x y => round2 (v y.1) ≤ round2 (v x.1)
  rest : ∀ x ∈ rows, ∀ name ∈ groupNames sys, name ∉ rows.map (·.1) → v name ≤ v x.1

/-! ## User names -/

theorem mem_addUsername {name a : String} {names : List String} :
    a ∈ addUsername name names ↔ a = name ∧ name ≠ "" ∨ a ∈ names := by
  unfold addUsername
  split
  · next h => simp [h]
  · next h => simp [Map.mem_insertKey, h]

theorem sorted_addUsername {name : String} {names : List String} (h : names.Pairwise (· < ·)) :
    (addUsername name names).Pairwise (· < ·) := by
  unfold addUsername
  split
  · exact h
  · exact Map.sorted_insertKey h

theorem sorted_foldl_addUsername (us : List String) {names : List String}
    (h : names.Pairwise (· < ·)) :
    (us.foldl (fun names u => addUsername u names) names).Pairwise (· < ·) := by
  induction us generalizing names with
  | nil => exact h
  | cons u us ih => exact ih (sorted_addUsername h)

theorem mem_foldl_addUsername {a : String} (us names : List String) :
    a ∈ us.foldl (fun names u => addUsername u names) names ↔ (a ∈ us ∧ a ≠ "") ∨ a ∈ names := by
  induction us generalizing names with
  | nil => simp
  | cons u us ih =>
    rw [List.foldl_cons, ih, mem_addUsername, List.mem_cons]
    constructor
    · rintro (⟨ha, hne⟩ | ⟨rfl, hne⟩ | ha)
      · exact .inl ⟨.inr ha, hne⟩
      · exact .inl ⟨.inl rfl, hne⟩
      · exact .inr ha
    · rintro (⟨rfl | ha, hne⟩ | ha)
      · exact .inr (.inl ⟨rfl, hne⟩)
      · exact .inl ⟨ha, hne⟩
      · exact .inr (.inr ha)

theorem foldl_addUsername (us : List String) :
    us.foldl (fun names u => addUsername u names) [] =
      (us.filter (· ≠ "")).dedup.mergeSort (· ≤ ·) := by
  have hle : ((us.filter (· ≠ "")).dedup.mergeSort (· ≤ ·)).Pairwise (· ≤ ·) :=
    List.pairwise_mergeSort' _ _
  have hne : ((us.filter (· ≠ "")).dedup.mergeSort (· ≤ ·)).Nodup :=
    List.nodup_mergeSort.mpr (List.nodup_dedup _)
  apply Map.sorted_ext
  · exact sorted_foldl_addUsername us .nil
  · exact (hle.and hne).imp fun h => lt_of_le_of_ne h.1 h.2
  · intro a
    rw [mem_foldl_addUsername, List.mem_mergeSort, List.mem_dedup, List.mem_filter]
    simp

/-! ## The groups that the collectors build -/

section
variable {γ : Type} (init : γ) (step : γ → Nat × SysProcess → γ)

/-- **A map built by grouping gives back the groups**, in whatever order it iterates. -/
theorem iter_groupBy (o : HashOrder) (sys : System) :
    (o.iter (Map.groupBy nameOf init step (mainProcesses sys))).Perm
      ((groupNames sys).map fun k => (k, (processesOf sys k).foldl step init)) := by
  let keys := (Map.groupBy nameOf init step (mainProcesses sys)).map Prod.fst
  have hkeys : (o.order keys).Perm (groupNames sys) := by
    refine (o.perm keys).trans ?_
    refine (List.perm_ext_iff_of_nodup (Map.nodup_keys_groupBy nameOf init step _)
      (List.nodup_dedup _)).mpr fun k => ?_
    rw [List.mem_dedup]
    exact Map.mem_keys_groupBy nameOf init step
  have hiter : o.iter (Map.groupBy nameOf init step (mainProcesses sys)) =
      (o.order keys).map fun k => (k, (processesOf sys k).foldl step init) := by
    rw [← List.filterMap_eq_map]
    refine List.filterMap_congr fun k hk => ?_
    have hmem : k ∈ (mainProcesses sys).map nameOf :=
      List.mem_dedup.mp (hkeys.subset hk)
    rw [Map.find?_groupBy, if_pos hmem]
    rfl
  rw [hiter]
  exact hkeys.map _

end

/-- The top ten of groups are the rows of a table of the groups' values. -/
theorem isTable_of_isTop {γ : Type} (val : γ → ℚ) (names : γ → List String) (mk : String → γ)
    {sys : System} {users : List (Nat × String)} {top : List (String × γ)}
    (hnames : ∀ k, names (mk k) = groupUsers sys users k)
    (h : IsTop topN (fun p : String × γ => val p.2) ((groupNames sys).map fun k => (k, mk k)) top) :
    IsTable (fun k => val (mk k)) sys users
      (top.map fun p => (p.1, Text.join ", " (names p.2), .fin (round2 (val p.2)))) := by
  have hmk : ∀ p ∈ top, p.1 ∈ groupNames sys ∧ p.2 = mk p.1 := by
    intro p hp
    obtain ⟨k, hk, rfl⟩ := List.mem_map.mp (h.subset hp)
    exact ⟨hk, rfl⟩
  have hfalling : (top.map fun p => (p.1, Text.join ", " (names p.2), F64.fin (round2 (val p.2)))
      ).Pairwise fun x y => val (mk y.1) ≤ val (mk x.1) := by
    refine List.pairwise_map.mpr (h.falling.imp_of_mem fun ha hb hab => ?_)
    rwa [← (hmk _ ha).2, ← (hmk _ hb).2]
  constructor
  · rw [List.length_map, h.length, List.length_map]
  · rw [List.map_map]
    have hfst : (((groupNames sys).map fun k => (k, mk k)).map Prod.fst) = groupNames sys := by
      rw [List.map_map]
      exact List.map_id _
    refine h.nodup_map (f := Prod.fst) ?_
    rw [hfst]
    exact List.nodup_dedup _
  · intro x hx
    obtain ⟨p, hp, rfl⟩ := List.mem_map.mp hx
    obtain ⟨hn, he⟩ := hmk p hp
    exact ⟨hn, by rw [he, hnames], by rw [he]⟩
  · exact hfalling
  · exact hfalling.imp fun hab => round2_mono hab
  · intro x hx name hn hnot
    obtain ⟨p, hp, rfl⟩ := List.mem_map.mp hx
    have hle := h.le_of_notMem hp (List.mem_map.mpr ⟨name, hn, rfl⟩) fun hm =>
      hnot (List.mem_map.mpr ⟨_, List.mem_map.mpr ⟨_, hm, rfl⟩, rfl⟩)
    dsimp only
    rwa [← (hmk p hp).2]

/-! ## The two collectors -/

def aggregate (sys : System) (users : List (Nat × String)) (name : String) : Aggregated where
  memMb := groupSum (fun p => p.memory / (1024 * 1024)) sys name
  pids := (processesOf sys name).map Prod.fst
  usernames := groupUsers sys users name

/-- The pid a running update ends with: it moves to a process that uses the CPU, and away from 0. -/
def runningPid (l : List (Nat × SysProcess)) : Nat :=
  l.foldl (fun pid p => if pid = 0 || 0 < p.2.cpuUsage then p.1 else pid) 0

def aggregateCpu (sys : System) (users : List (Nat × String)) (name : String) : AggregatedCpu where
  cpuPct := groupSum SysProcess.cpuUsage sys name
  pid := runningPid (processesOf sys name)
  usernames := groupUsers sys users name

theorem foldl_username (users : List (Nat × String)) (l : List (Nat × SysProcess)) :
    l.foldl (fun names p => addUsername (username users p.2) names) [] =
      ((l.map fun p => username users p.2).filter (· ≠ "")).dedup.mergeSort (· ≤ ·) := by
  rw [← foldl_addUsername, List.foldl_map]

theorem groupByName_perm (o : HashOrder) (sys : System) (users : List (Nat × String)) :
    (o.iter (groupByName sys users)).Perm
      ((groupNames sys).map fun k => (k, aggregate sys users k)) := by
  have hfold : ∀ (l : List (Nat × SysProcess)) (e : Aggregated), l.foldl (fun e p =>
      { memMb := e.memMb + p.2.memory / (1024 * 1024)
        pids := e.pids ++ [p.1]
        usernames := addUsername (username users p.2) e.usernames }) e =
      { memMb := e.memMb + (l.map fun p => (p.2.memory : ℚ) / (1024 * 1024)).sum
        pids := e.pids ++ l.map Prod.fst
        usernames := l.foldl (fun names p => addUsername (username users p.2) names)
          e.usernames } := by
    intro l
    induction l with
    | nil => intro e; simp
    | cons p l ih => intro e; rw [List.foldl_cons, ih]; simp [add_assoc]
  have h := iter_groupBy (⟨0, [], []⟩ : Aggregated) (fun e p =>
      { memMb := e.memMb + p.2.memory / (1024 * 1024)
        pids := e.pids ++ [p.1]
        usernames := addUsername (username users p.2) e.usernames }) o sys
  simp only [hfold, foldl_username, zero_add, List.nil_append] at h
  exact h

theorem groupByNameCpu_perm (o : HashOrder) (sys : System) (users : List (Nat × String)) :
    (o.iter (groupByNameCpu sys users)).Perm
      ((groupNames sys).map fun k => (k, aggregateCpu sys users k)) := by
  have hfold : ∀ (l : List (Nat × SysProcess)) (e : AggregatedCpu), l.foldl (fun e p =>
      { cpuPct := e.cpuPct + p.2.cpuUsage
        pid := if e.pid = 0 || 0 < p.2.cpuUsage then p.1 else e.pid
        usernames := addUsername (username users p.2) e.usernames }) e =
      { cpuPct := e.cpuPct + (l.map fun p => p.2.cpuUsage).sum
        pid := l.foldl (fun pid p => if pid = 0 || 0 < p.2.cpuUsage then p.1 else pid) e.pid
        usernames := l.foldl (fun names p => addUsername (username users p.2) names)
          e.usernames } := by
    intro l
    induction l with
    | nil => intro e; simp
    | cons p l ih => intro e; rw [List.foldl_cons, ih]; simp [add_assoc]
  have h := iter_groupBy (⟨0, 0, []⟩ : AggregatedCpu) (fun e p =>
      { cpuPct := e.cpuPct + p.2.cpuUsage
        pid := if e.pid = 0 || 0 < p.2.cpuUsage then p.1 else e.pid
        usernames := addUsername (username users p.2) e.usernames }) o sys
  simp only [hfold, foldl_username, zero_add] at h
  exact h

theorem isTop_sortDesc {γ : Type} (val : γ → ℚ) {m groups : List (String × γ)}
    (h : m.Perm groups) :
    IsTop topN (fun p : String × γ => val p.2) groups ((sortDesc val m).take topN) :=
  .take (falling_sortFalling _ _) ((sortFalling_perm _ _).trans h)

def Process.row (p : Process) : Row := (p.name, p.username, p.mem)

def ProcessCpu.row (p : ProcessCpu) : Row := (p.name, p.username, p.cpu)

/-- **The tables by resident memory and by CPU are what an order-free reading of the process table
says they are.** -/
theorem process_tables_exact (r : Reading) (sys : System) (users : List (Nat × String)) :
    IsTable (groupSum (fun p => p.memory / (1024 * 1024)) sys) sys users
        ((collectTop r sys users false).map Process.row) ∧
      IsTable (groupSum SysProcess.cpuUsage sys) sys users
        ((collectTopCpu r sys users).map ProcessCpu.row) := by
  refine ⟨?_, ?_⟩
  · have htop := isTop_sortDesc Aggregated.memMb (groupByName_perm r.memOrder sys users)
    have h := isTable_of_isTop Aggregated.memMb Aggregated.usernames (aggregate sys users)
      (fun _ => rfl) htop
    rwa [collectTop, List.map_map]
  · have htop := isTop_sortDesc AggregatedCpu.cpuPct (groupByNameCpu_perm r.cpuOrder sys users)
    have h := isTable_of_isTop AggregatedCpu.cpuPct AggregatedCpu.usernames (aggregateCpu sys users)
      (fun _ => rfl) htop
    rwa [collectTopCpu, List.map_map]

end Vigil.Metrics

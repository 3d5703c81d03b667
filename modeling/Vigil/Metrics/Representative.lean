import Vigil.Metrics.Groups

/-!
# The process behind a CPU row

A row of the CPU table carries one pid of its group, for the reader who wants to
see the process that drives the load. The code keeps it by a running update that
moves on to every process that uses the CPU at all, so it ends with the last of
these in the order of the process table and not with the busiest.
-/

namespace Vigil.Metrics

open Vigil.Lib

/-- The process uses the CPU. -/
def SysProcess.Busy (p : SysProcess) : Prop := 0 < p.cpuUsage

/-- No process of the list uses the CPU more. -/
def Busiest (l : List (Nat × SysProcess)) (p : Nat × SysProcess) : Prop :=
  p ∈ l ∧ ∀ q ∈ l, q.2.cpuUsage ≤ p.2.cpuUsage

/-- The running update comes to rest on a process of the highest usage: the last busy one, or where
none is busy the first whose pid is not the 0 that stands for no pid yet. -/
structure Represented (l : List (Nat × SysProcess)) : Prop where
  busy : ∀ xs p ys, l = xs ++ p :: ys → p.2.Busy → (∀ q ∈ ys, ¬ q.2.Busy) →
    Busiest l p ∧ (p.1 = 0 → ys = [])
  idle : (∀ q ∈ l, ¬ q.2.Busy) → ∀ xs p ys, l = xs ++ p :: ys → (∀ q ∈ xs, q.1 = 0) →
    (p.1 = 0 → ys = []) → Busiest l p

/-! ## The running update -/

/-- One step of the update. -/
def nextPid (pid : Nat) (p : Nat × SysProcess) : Nat :=
  if pid = 0 || 0 < p.2.cpuUsage then p.1 else pid

theorem nextPid_busy {pid : Nat} {p : Nat × SysProcess} (h : p.2.Busy) : nextPid pid p = p.1 := by
  have : 0 < p.2.cpuUsage := h
  simp [nextPid, this]

theorem nextPid_idle {pid : Nat} {p : Nat × SysProcess} (hp : pid ≠ 0) (h : ¬ p.2.Busy) :
    nextPid pid p = pid := by
  have : ¬ 0 < p.2.cpuUsage := h
  simp [nextPid, hp, this]

@[simp] theorem nextPid_zero (p : Nat × SysProcess) : nextPid 0 p = p.1 := by simp [nextPid]

/-- A pid stays where no busy process follows. -/
theorem foldl_nextPid_idle {pid : Nat} {l : List (Nat × SysProcess)} (hp : pid ≠ 0)
    (h : ∀ q ∈ l, ¬ q.2.Busy) : l.foldl nextPid pid = pid := by
  induction l with
  | nil => rfl
  | cons q l ih =>
    rw [List.foldl_cons, nextPid_idle hp (h q List.mem_cons_self)]
    exact ih fun q' hq => h q' (List.mem_cons_of_mem q hq)

theorem foldl_nextPid_zero {l : List (Nat × SysProcess)} (h : ∀ q ∈ l, q.1 = 0) :
    l.foldl nextPid 0 = 0 := by
  induction l with
  | nil => rfl
  | cons q l ih =>
    rw [List.foldl_cons, nextPid_zero, h q List.mem_cons_self]
    exact ih fun q' hq => h q' (List.mem_cons_of_mem q hq)

/-- Past a process the update has moved to, where no busy one follows and its pid is not 0. -/
theorem runningPid_eq {xs ys : List (Nat × SysProcess)} {p : Nat × SysProcess}
    (hmove : nextPid (xs.foldl nextPid 0) p = p.1) (hys : ∀ q ∈ ys, ¬ q.2.Busy)
    (h0 : p.1 = 0 → ys = []) : runningPid (xs ++ p :: ys) = p.1 := by
  show (xs ++ p :: ys).foldl nextPid 0 = p.1
  rw [List.foldl_append, List.foldl_cons, hmove]
  by_cases hp : p.1 = 0
  · rw [h0 hp]
    rfl
  · exact foldl_nextPid_idle hp hys

theorem runningPid_busy {xs ys : List (Nat × SysProcess)} {p : Nat × SysProcess}
    (hp : p.2.Busy) (hys : ∀ q ∈ ys, ¬ q.2.Busy) (h0 : p.1 = 0 → ys = []) :
    runningPid (xs ++ p :: ys) = p.1 :=
  runningPid_eq (nextPid_busy hp) hys h0

theorem runningPid_idle {xs ys : List (Nat × SysProcess)} {p : Nat × SysProcess}
    (hidle : ∀ q ∈ xs ++ p :: ys, ¬ q.2.Busy) (hxs : ∀ q ∈ xs, q.1 = 0) (h0 : p.1 = 0 → ys = []) :
    runningPid (xs ++ p :: ys) = p.1 := by
  refine runningPid_eq ?_ (fun q hq => hidle q (by simp [hq])) h0
  rw [foldl_nextPid_zero hxs, nextPid_zero]

/-- The pid 0 of a busy process is taken for none, and the idle one behind it is moved to. -/
theorem runningPid_busy_zero {xs ys : List (Nat × SysProcess)} {p y : Nat × SysProcess}
    (hp : p.2.Busy) (hp0 : p.1 = 0) (hy0 : y.1 ≠ 0) (hys : ∀ q ∈ ys, ¬ q.2.Busy) :
    runningPid (xs ++ p :: y :: ys) = y.1 := by
  rw [← List.singleton_append, ← List.append_assoc, runningPid_eq ?_ hys (absurd · hy0)]
  rw [List.foldl_append, List.foldl_cons, nextPid_busy hp, hp0]
  exact nextPid_zero y

theorem exists_last_busy {l : List (Nat × SysProcess)} (h : ∃ q ∈ l, q.2.Busy) :
    ∃ xs p ys, l = xs ++ p :: ys ∧ p.2.Busy ∧ ∀ q ∈ ys, ¬ q.2.Busy := by
  induction l with
  | nil => simp at h
  | cons x l ih =>
    by_cases hl : ∃ q ∈ l, q.2.Busy
    · obtain ⟨xs, p, ys, rfl, hp, hys⟩ := ih hl
      exact ⟨x :: xs, p, ys, rfl, hp, hys⟩
    · obtain ⟨q, hq, hb⟩ := h
      rcases List.mem_cons.mp hq with rfl | hq
      · exact ⟨[], q, l, rfl, hb, fun y hy hyb => hl ⟨y, hy, hyb⟩⟩
      · exact absurd ⟨q, hq, hb⟩ hl

theorem exists_first_pid {l : List (Nat × SysProcess)} (h : l ≠ []) :
    ∃ xs p ys, l = xs ++ p :: ys ∧ (∀ q ∈ xs, q.1 = 0) ∧ (p.1 = 0 → ys = []) := by
  induction l with
  | nil => exact absurd rfl h
  | cons x l ih =>
    by_cases hx : x.1 = 0
    · by_cases hl : l = []
      · exact ⟨[], x, l, rfl, by simp, fun _ => hl⟩
      · obtain ⟨xs, p, ys, rfl, hxs, h0⟩ := ih hl
        refine ⟨x :: xs, p, ys, rfl, fun q hq => ?_, h0⟩
        rcases List.mem_cons.mp hq with rfl | hq
        · exact hx
        · exact hxs q hq
    · exact ⟨[], x, l, rfl, by simp, fun h0 => absurd h0 hx⟩

/-- Where pids are distinct, the pid of a busiest process makes the list represented. -/
theorem represented_of_runningPid {l : List (Nat × SysProcess)} (hd : (l.map Prod.fst).Nodup)
    {b : Nat × SysProcess} (hb : Busiest l b) (hpid : b.1 = runningPid l) : Represented l := by
  have hinj : ∀ p ∈ l, p.1 = runningPid l → Busiest l p := by
    intro p hp he
    have : p = b := List.inj_on_of_nodup_map hd hp hb.1 (he.trans hpid.symm)
    rwa [this]
  refine ⟨?_, ?_⟩
  · intro xs p ys hsplit hp hys
    have hmem : p ∈ l := by simp [hsplit]
    by_cases h0 : p.1 = 0 → ys = []
    · refine ⟨hinj p hmem ?_, h0⟩
      rw [hsplit, runningPid_busy hp hys h0]
    · obtain ⟨hp0, hne⟩ := Classical.not_imp.mp h0
      obtain ⟨y, ys, rfl⟩ := List.exists_cons_of_ne_nil hne
      have hy0 : y.1 ≠ 0 := by
        rw [hsplit, List.map_append] at hd
        have hpy := (List.nodup_cons.mp hd.of_append_right).1
        intro hy0
        exact hpy (by simp [hp0, hy0])
      have hy := hinj y (by simp [hsplit]) <| by
        rw [hsplit, runningPid_busy_zero hp hp0 hy0 fun q hq => hys q (List.mem_cons_of_mem y hq)]
      -- an idle process would be the busiest
      exact absurd (lt_of_lt_of_le hp (hy.2 p hmem)) (hys y List.mem_cons_self)
  · intro hidle xs p ys hsplit hxs h0
    refine hinj p (by simp [hsplit]) ?_
    rw [hsplit] at hidle ⊢
    exact (runningPid_idle hidle hxs h0).symm

theorem Represented.runningPid {l : List (Nat × SysProcess)} (h : Represented l) (hl : l ≠ []) :
    ∃ p, Busiest l p ∧ p.1 = runningPid l := by
  by_cases hb : ∃ q ∈ l, q.2.Busy
  · obtain ⟨xs, p, ys, hsplit, hp, hys⟩ := exists_last_busy hb
    obtain ⟨hmax, h0⟩ := h.busy xs p ys hsplit hp hys
    refine ⟨p, hmax, ?_⟩
    rw [hsplit, runningPid_busy hp hys h0]
  · have hidle : ∀ q ∈ l, ¬ q.2.Busy := fun q hq hqb => hb ⟨q, hq, hqb⟩
    obtain ⟨xs, p, ys, hsplit, hxs, h0⟩ := exists_first_pid hl
    refine ⟨p, h.idle hidle xs p ys hsplit hxs h0, ?_⟩
    rw [hsplit] at hidle ⊢
    exact (runningPid_idle hidle hxs h0).symm

/-- A row of the CPU table names a group and carries its running pid. -/
theorem collectTopCpu_row {r : Reading} {sys : System} {users : List (Nat × String)}
    {row : ProcessCpu} (h : row ∈ collectTopCpu r sys users) :
    row.name ∈ groupNames sys ∧ row.pid = runningPid (processesOf sys row.name) := by
  obtain ⟨⟨name, agg⟩, hmem, rfl⟩ := List.mem_map.mp h
  have hentry := (sortFalling_perm _ _).subset (List.mem_of_mem_take hmem)
  obtain ⟨k, hk, he⟩ :=
    List.mem_map.mp ((groupByNameCpu_perm r.cpuOrder sys users).subset hentry)
  cases he
  exact ⟨hk, rfl⟩

/-- **When the pid of a CPU row is that of a busiest process of its group.** -/
theorem cpu_pid_iff {r : Reading} {sys : System} {users : List (Nat × String)}
    (hd : (sys.processes.map Prod.fst).Nodup) :
    ∀ row ∈ collectTopCpu r sys users,
      ((∃ p, Busiest (processesOf sys row.name) p ∧ p.1 = row.pid) ↔
        Represented (processesOf sys row.name)) := by
  intro row hrow
  obtain ⟨hname, hpid⟩ := collectTopCpu_row hrow
  have hne : processesOf sys row.name ≠ [] := by
    obtain ⟨p, hp, he⟩ := List.mem_map.mp (List.mem_dedup.mp hname)
    exact List.ne_nil_of_mem (List.mem_filter.mpr ⟨hp, by simpa using he⟩)
  have hdistinct : ((processesOf sys row.name).map Prod.fst).Nodup :=
    hd.sublist ((List.filter_sublist.trans List.filter_sublist).map Prod.fst)
  rw [hpid]
  exact ⟨fun ⟨_, hb, he⟩ => represented_of_runningPid hdistinct hb he, fun h => h.runningPid hne⟩

/-! ## Two processes of one name -/

/-- A process that has used the CPU for some percent. -/
def worker (cpuUsage : ℚ) : SysProcess := ⟨"worker", 0, cpuUsage, none, false⟩

def workers (first second : ℚ) : System :=
  ⟨.fin 0, [], 0, 0, [(10, worker first), (11, worker second)]⟩

theorem processesOf_workers (first second : ℚ) :
    processesOf (workers first second) "worker" = [(10, worker first), (11, worker second)] := by
  with_unfolding_all rfl

theorem collectTopCpu_workers {first second : ℚ} (h : 0 < second) :
    collectTopCpu .quiet (workers first second) [] =
      [⟨11, "worker", "", .fin (round2 (0 + first + second))⟩] := by
  have hiter : Reading.quiet.cpuOrder.iter (groupByNameCpu (workers first second) []) =
      [("worker", ⟨0 + first + second, nextPid 10 (11, worker second), []⟩)] := by
    with_unfolding_all rfl
  have hbusy : (worker second).Busy := h
  rw [collectTopCpu, hiter, sortDesc, List.mergeSort_singleton, nextPid_busy hbusy]
  rfl

/-- The row names the process with a fifth of the load of the other. -/
theorem cpu_pid_of_last : ∃ row ∈ collectTopCpu .quiet (workers 5 1) [],
    ¬ ∃ p, Busiest (processesOf (workers 5 1) row.name) p ∧ p.1 = row.pid := by
  rw [collectTopCpu_workers one_pos]
  refine ⟨_, List.mem_singleton_self _, ?_⟩
  rintro ⟨p, ⟨hp, hmax⟩, hpid⟩
  dsimp only at hp hmax hpid
  rw [processesOf_workers] at hp hmax
  have h5 := hmax (10, worker 5) List.mem_cons_self
  simp only [List.mem_cons, List.not_mem_nil, or_false] at hp
  rcases hp with rfl | rfl
  · exact absurd hpid (by decide)
  · exact absurd h5 (by norm_num [worker])

/-- The other way round it is the busiest. -/
theorem cpu_pid_iff_workers : ∃ row ∈ collectTopCpu .quiet (workers 1 5) [],
    Represented (processesOf (workers 1 5) row.name) := by
  have hrow : (⟨11, "worker", "", .fin (round2 (0 + 1 + 5))⟩ : ProcessCpu) ∈
      collectTopCpu .quiet (workers 1 5) [] := by
    rw [collectTopCpu_workers (by norm_num)]
    exact List.mem_singleton_self _
  refine ⟨_, hrow, (cpu_pid_iff (by decide) _ hrow).mp ⟨(11, worker 5), ?_, rfl⟩⟩
  dsimp only
  rw [processesOf_workers]
  refine ⟨by simp, fun q hq => ?_⟩
  simp only [List.mem_cons, List.not_mem_nil, or_false] at hq
  rcases hq with rfl | rfl <;> norm_num [worker]

end Vigil.Metrics

import Vigil.Metrics.Groups

/-!
# The ten groups with the most PSS

PSS is costly to read, so `collect_top` reads it group by group, in the order of
falling resident memory, and stops when the next group's resident memory is no
larger than the smallest PSS of ten. `pss_table_exact` says that this loses
nothing: PSS is never above resident memory, so the walk is a `streamTop` with
resident memory for its bound.
-/

namespace Vigil.Metrics

open Vigil.Lib

variable {r : Reading} {sys : System} {users : List (Nat × String)}

/-- What a process counts for in bytes: its PSS, or its resident memory where PSS is unreadable. -/
def pssOf (r : Reading) (p : Nat × SysProcess) : Nat :=
  match readPssKb r p.1 with
  | some kb => kb * 1024
  | none => p.2.memory

/-- The PSS of a group in MiB, summed in a `u64` that stays at its maximum. -/
def groupPss (r : Reading) (sys : System) (name : String) : ℚ :=
  ((min ((processesOf sys name).map (pssOf r)).sum u64Max : Nat) : ℚ) / (1024 * 1024)

/-- A process table: pids are distinct, resident memory is a `u64`, and no process has more PSS than
resident memory. -/
structure Measured (r : Reading) (sys : System) : Prop where
  pids : (sys.processes.map Prod.fst).Nodup
  memory : ∀ p ∈ sys.processes, p.2.memory ≤ u64Max
  pss : ∀ p ∈ sys.processes, ∀ kb, readPssKb r p.1 = some kb → kb * 1024 ≤ p.2.memory

namespace Measured

theorem pssOf_le (h : Measured r sys) {p : Nat × SysProcess} (hp : p ∈ sys.processes) :
    pssOf r p ≤ p.2.memory := by
  unfold pssOf
  split
  · next kb hkb => exact h.pss p hp kb hkb
  · exact le_rfl

/-- What `group_pss_mb` adds for a pid of the table. -/
theorem bytes_eq (h : Measured r sys) {p : Nat × SysProcess} (hp : p ∈ sys.processes) :
    (match readPssKb r p.1 with
      | some kb => satMul kb 1024
      | none => ((sys.processes.find? (·.1 = p.1)).map (·.2.memory)).getD 0) = pssOf r p := by
  unfold pssOf
  split
  · next kb hkb =>
    have := (h.pss p hp kb hkb).trans (h.memory p hp)
    rw [satMul, min_eq_left this]
  · rw [Map.find?_of_mem h.pids hp]
    rfl

theorem mem_of_processesOf {name : String} {p : Nat × SysProcess} (hp : p ∈ processesOf sys name) :
    p ∈ sys.processes :=
  List.mem_of_mem_filter (List.mem_of_mem_filter hp)

theorem groupPssMb_eq (h : Measured r sys) (name : String) :
    groupPssMb r sys (aggregate sys users name) = groupPss r sys name := by
  have hfold : ((processesOf sys name).map Prod.fst).foldl (fun sum pid => satAdd sum
      (match readPssKb r pid with
        | some kb => satMul kb 1024
        | none => ((sys.processes.find? (·.1 = pid)).map (·.2.memory)).getD 0)) 0 =
      ((processesOf sys name).map (pssOf r)).foldl satAdd 0 := by
    rw [List.foldl_map, List.foldl_map]
    refine List.foldl_ext _ _ _ fun sum p hp => ?_
    rw [h.bytes_eq (mem_of_processesOf hp)]
  exact congrArg (fun n : Nat => (n : ℚ) / (1024 * 1024)) (hfold.trans (foldl_satAdd_zero _))

/-- **The bound of the walk.** -/
theorem groupPss_le (h : Measured r sys) (name : String) :
    groupPss r sys name ≤ groupSum (fun p => p.memory / (1024 * 1024)) sys name := by
  have hsum : ∀ l : List (Nat × SysProcess), (∀ p ∈ l, p ∈ sys.processes) →
      (((l.map (pssOf r)).sum : Nat) : ℚ) / (1024 * 1024) ≤
        (l.map fun p => (p.2.memory : ℚ) / (1024 * 1024)).sum := by
    intro l
    induction l with
    | nil => intro _; simp
    | cons p l ih =>
      intro hl
      have hp : ((pssOf r p : Nat) : ℚ) ≤ p.2.memory := by
        exact_mod_cast h.pssOf_le (hl p List.mem_cons_self)
      have hrest := ih fun q hq => hl q (List.mem_cons_of_mem p hq)
      rw [List.map_cons, List.sum_cons, Nat.cast_add, add_div, List.map_cons, List.sum_cons]
      exact add_le_add (div_le_div_of_nonneg_right hp (by norm_num)) hrest
  refine le_trans ?_ (hsum _ fun p hp => mem_of_processesOf hp)
  refine div_le_div_of_nonneg_right ?_ (by norm_num)
  exact_mod_cast min_le_left _ _

end Measured

/-! ## The walk -/

def withPss (pssMb : Aggregated → ℚ) (p : String × Aggregated) : String × Aggregated :=
  (p.1, { p.2 with memMb := pssMb p.2 })

/-- **The loop is the streaming top ten**, with resident memory for its bound. -/
theorem pssLoop_eq (pssMb : Aggregated → ℚ) (top entries : List (String × Aggregated)) :
    pssLoop pssMb top entries =
      streamTop topN (withPss pssMb) (fun p => p.2.memMb) (fun p => p.2.memMb) top entries := by
  induction entries generalizing top with
  | nil => rfl
  | cons x xs ih =>
    unfold pssLoop streamTop
    have hstop : (top.length = topN && top[topN - 1]?.any fun t => x.2.memMb ≤ t.2.memMb) = true ↔
        top.length = topN ∧ top.getLast?.any (fun t => x.2.memMb ≤ t.2.memMb) = true := by
      rw [Bool.and_eq_true, decide_eq_true_eq]
      refine and_congr_right fun hl => ?_
      rw [List.getLast?_eq_getElem?, hl]
    split
    · next h => rw [if_pos (hstop.mp h)]
    · next h =>
      rw [if_neg fun h' => h (hstop.mpr h')]
      exact ih _

theorem isTop_pssLoop (h : Measured r sys) (users : List (Nat × String)) :
    IsTop topN (fun p : String × Aggregated => p.2.memMb)
      ((groupNames sys).map fun k =>
        (k, { aggregate sys users k with memMb := groupPss r sys k }))
      (pssLoop (groupPssMb r sys) []
        (sortDesc Aggregated.memMb (r.memOrder.iter (groupByName sys users)))) := by
  let entries := sortDesc Aggregated.memMb (r.memOrder.iter (groupByName sys users))
  have hperm : entries.Perm ((groupNames sys).map fun k => (k, aggregate sys users k)) :=
    (sortFalling_perm _ _).trans (groupByName_perm r.memOrder sys users)
  have hbound : ∀ x ∈ entries, (withPss (groupPssMb r sys) x).2.memMb ≤ x.2.memMb := by
    intro x hx
    obtain ⟨k, -, rfl⟩ := List.mem_map.mp (hperm.subset hx)
    exact (h.groupPssMb_eq k).le.trans (h.groupPss_le k)
  have hstart : IsTop topN (fun p : String × Aggregated => p.2.memMb) [] [] := .nil
  have hstream := isTop_streamTop (f := withPss (groupPssMb r sys)) hbound
    (falling_sortFalling _ _) hstart
  rw [pssLoop_eq]
  refine hstream.congr ?_
  rw [List.nil_append]
  refine (hperm.map _).trans (.of_eq ?_)
  rw [List.map_map]
  refine List.map_congr_left fun k _ => ?_
  show (k, { aggregate sys users k with memMb := groupPssMb r sys (aggregate sys users k) }) = _
  rw [h.groupPssMb_eq]

theorem isTable_pss (h : Measured r sys) (users : List (Nat × String)) :
    IsTable (groupPss r sys) sys users ((collectTop r sys users true).map Process.row) := by
  have htable := isTable_of_isTop Aggregated.memMb Aggregated.usernames
    (fun k => { aggregate sys users k with memMb := groupPss r sys k }) (fun _ => rfl)
    (isTop_pssLoop h users)
  rwa [collectTop, List.map_map]

/-- **The streaming top ten by PSS is exact.** It returns the ten groups with the most PSS, each
with its own, and the values are those of sorting all groups and keeping ten. -/
theorem pss_table_exact (h : Measured r sys) (users : List (Nat × String)) :
    IsTable (groupPss r sys) sys users ((collectTop r sys users true).map Process.row) ∧
      (collectTop r sys users true).map Process.mem =
        ((((groupNames sys).map (groupPss r sys)).mergeSort (· ≥ ·)).take topN).map
          fun v => .fin (round2 v) := by
  refine ⟨isTable_pss h users, ?_⟩
  have hkeys := (isTop_pssLoop h users).keys
  rw [List.map_map] at hkeys
  calc (collectTop r sys users true).map Process.mem
      = ((pssLoop (groupPssMb r sys) [] (sortDesc Aggregated.memMb
          (r.memOrder.iter (groupByName sys users)))).map fun p => p.2.memMb).map
            fun v => F64.fin (round2 v) := by
        rw [List.map_map]
        exact List.map_map ..
    _ = _ := by
        rw [hkeys]
        rfl

/-! ## Two tables -/

def resident (name : String) (memory : Nat) : SysProcess := ⟨name, memory, 0, none, false⟩

/-- A host that lets us read the PSS of process 10. -/
def halfShared : Reading :=
  { Reading.quiet with smapsRollup := fun pid => if pid = 10 then some "Pss:    4096 kB" else none }

def twoGroups : System :=
  ⟨.fin 0, [], 0, 0, [(10, resident "shared" (2 ^ 23)), (11, resident "private" (2 ^ 22))]⟩

theorem twoGroups_measured : Measured halfShared twoGroups := by
  have hread : readPssKb halfShared 10 = some 4096 := by with_unfolding_all rfl
  refine ⟨by decide, by decide, fun p hp kb hkb => ?_⟩
  simp only [twoGroups, List.mem_cons, List.not_mem_nil, or_false] at hp
  rcases hp with rfl | rfl
  · rw [hread] at hkb
    cases hkb
    decide
  · cases hkb

theorem pss_table_exact_twoGroups : Measured halfShared twoGroups ∧
    IsTable (groupPss halfShared twoGroups) twoGroups []
      ((collectTop halfShared twoGroups [] true).map Process.row) :=
  ⟨twoGroups_measured, (pss_table_exact twoGroups_measured []).1⟩

/-- Two processes of one name with a little more than 8 EiB each. -/
def sixteenEiB : System :=
  ⟨.fin 0, [], 0, 0,
    [(10, resident "heavy" (2 ^ 63 + 2 ^ 20)), (11, resident "heavy" (2 ^ 63 + 2 ^ 20))]⟩

theorem sixteenEiB_measured : Measured .quiet sixteenEiB :=
  ⟨by decide, by decide, fun p _ kb h => by cases h⟩

/-- The sum of a group stays at the largest `u64`, 2 MiB below the PSS of this one. -/
theorem pss_sum_saturates : Measured .quiet sixteenEiB ∧
    ∃ row ∈ collectTop .quiet sixteenEiB [] true, row.mem ≠ .fin (round2
      ((((processesOf sixteenEiB row.name).map (pssOf .quiet)).sum : Nat) / (1024 * 1024))) := by
  have htable := isTable_pss sixteenEiB_measured []
  have hnames : groupNames sixteenEiB = ["heavy"] := by decide
  have hlen : (collectTop .quiet sixteenEiB [] true).length = 1 := by
    have := htable.length
    rwa [hnames, List.length_map] at this
  obtain ⟨row, hrow⟩ := List.exists_mem_of_length_pos (by rw [hlen]; exact Nat.one_pos)
  obtain ⟨hname, -, hmem⟩ := htable.row _ (List.mem_map_of_mem hrow)
  have hheavy : row.name = "heavy" := by
    rw [hnames] at hname
    exact List.mem_singleton.mp hname
  have hsum : ((processesOf sixteenEiB "heavy").map (pssOf .quiet)).sum = 2 ^ 64 + 2 ^ 21 := by
    decide
  refine ⟨sixteenEiB_measured, row, hrow, ?_⟩
  intro he
  have hround := F64.fin.inj (hmem.symm.trans he)
  rw [show (Process.row row).1 = row.name from rfl, groupPss, hheavy, hsum] at hround
  exact absurd hround (by decide +kernel)

end Vigil.Metrics

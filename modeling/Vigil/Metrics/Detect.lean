import Vigil.Lib.Table
import Vigil.Lib.Top
import Vigil.Metrics.Process

/-!
# Whether PSS can be read

`SmapsRollup` is what the kernel prints for a process, and `read_pss_kb` reads
its PSS (`readPssKb_rollup`). `detect_pss` probes the foreign pids in ascending
order. The map it takes them from has no order of its own; `detectPss_iff` says
that the answer is the status of the smallest pid that has not exited, so it
does not depend on one.
-/

namespace Vigil.Metrics

open Vigil.Lib Vigil.Lib.Text

/-! ## The rollup of a process -/

/-- `smaps_rollup`: the lines before that of the PSS, the PSS in kB, and the lines after it. -/
structure SmapsRollup where
  before : List (List Char)
  pss : Nat
  layout : Layout
  unit : Word
  after : List (List Char)
  newline : ∀ l ∈ before ++ after, '\n' ∉ l
  first : ∀ l ∈ before, ¬ "Pss:".toList <+: l
  fits : pss ≤ u64Max

namespace SmapsRollup

variable (s : SmapsRollup)

def pssLine : List Char := "Pss:".toList ++ s.layout.render 0 [.ofNat s.pss, s.unit]

def text : String := String.ofList (ofLines (s.before ++ s.pssLine :: s.after))

theorem newline_notMem {l : List Char} (hl : l ∈ s.before ++ s.pssLine :: s.after) : '\n' ∉ l := by
  rcases List.mem_append.mp hl with hl | hl
  · exact s.newline l (List.mem_append_left _ hl)
  rcases List.mem_cons.mp hl with rfl | hl
  · rw [pssLine, List.mem_append]
    rintro (h | h)
    · exact absurd h (by decide)
    · exact s.layout.newline_notMem_render 0 _ h
  · exact s.newline l (List.mem_append_right _ hl)

end SmapsRollup

/-- The PSS of a process is read from its rollup. -/
theorem readPssKb_rollup {r : Reading} {p : Nat} {s : SmapsRollup}
    (h : r.smapsRollup p = some s.text) : readPssKb r p = some s.pss := by
  have hbefore : (s.before.map chompCr).findSome? (stripPrefix "Pss:") = none := by
    rw [List.findSome?_eq_none_iff]
    intro l hl
    obtain ⟨m, hm, rfl⟩ := List.mem_map.mp hl
    exact stripPrefix_eq_none_iff.mpr fun hp => s.first m hm (hp.trans (chompCr_isPrefix m))
  have hline : chompCr s.pssLine =
      "Pss:".toList ++ chompCr (s.layout.render 0 [.ofNat s.pss, s.unit]) :=
    chompCr_append_cons (by decide) "Pss".toList _
  have hwords : splitWhitespace (trim (chompCr (s.layout.render 0 [.ofNat s.pss, s.unit]))) =
      [(Word.ofNat s.pss).chars, s.unit.chars] := by
    rw [splitWhitespace_trim, splitWhitespace_chompCr, Layout.splitWhitespace_render]
    rfl
  have hlines : lines s.text.toList =
      s.before.map chompCr ++ chompCr s.pssLine :: s.after.map chompCr := by
    rw [SmapsRollup.text, String.toList_ofList, lines_ofLines fun _ => s.newline_notMem,
      List.map_append, List.map_cons]
  have hfind : (lines s.text.toList).findSome? (stripPrefix "Pss:") =
      some (chompCr (s.layout.render 0 [.ofNat s.pss, s.unit])) := by
    rw [hlines, List.findSome?_append, hbefore, Option.none_or, List.findSome?_cons,
      stripPrefix_eq_some_iff.mpr hline]
  unfold readPssKb
  rw [h]
  simp only [Option.bind_eq_bind, Option.bind_some, hfind, hwords, List.head?_cons,
    parseU64_ofNat s.fits]

/-! ## The probe -/

/-- What the probe of a pid meets: a PSS it can read, a process that withholds it, or none. -/
inductive PidStatus where
  | readable
  | denied
  | exited
  deriving DecidableEq

def Reading.pidStatus (r : Reading) (p : Nat) : PidStatus :=
  match readPssKb r p with
  | some _ => .readable
  | none => if r.procExists p then .denied else .exited

/-- What the file system shows of a pid: its rollup, its directory without one, or nothing. -/
inductive Reading.Shows (r : Reading) (p : Nat) : PidStatus → Prop where
  | readable (s : SmapsRollup) : r.smapsRollup p = some s.text → r.Shows p .readable
  | denied : r.smapsRollup p = none → r.procExists p = true → r.Shows p .denied
  | exited : r.smapsRollup p = none → r.procExists p = false → r.Shows p .exited

theorem Reading.Shows.pidStatus_eq {r : Reading} {p : Nat} {status : PidStatus}
    (h : r.Shows p status) : r.pidStatus p = status := by
  unfold Reading.pidStatus
  cases h with
  | readable s hs => rw [readPssKb_rollup hs]
  | denied hs hp => simp [readPssKb, hs, hp]
  | exited hs hp => simp [readPssKb, hs, hp]

/-- The pids of the process map, in the order of its iteration. -/
def System.pids (sys : System) : List Nat := sys.processes.map Prod.fst

def aliveForeign (r : Reading) (sys : System) : Set Nat :=
  {p | p ∈ sys.pids ∧ p ≠ r.ownPid ∧ r.pidStatus p ≠ .exited}

/-- One pass of the probe: an exited pid decides nothing. -/
theorem detectPssLoop_cons (r : Reading) (p : Nat) (ps : List Nat) :
    detectPssLoop r (p :: ps) =
      match r.pidStatus p with
      | .readable => true
      | .denied => false
      | .exited => detectPssLoop r ps := by
  rw [detectPssLoop, Reading.pidStatus]
  cases readPssKb r p with
  | some kb => rfl
  | none =>
    dsimp only
    split <;> rfl

/-- The probe is a search for the first pid that has not exited. -/
theorem detectPssLoop_eq (r : Reading) (ps : List Nat) :
    detectPssLoop r ps =
      (ps.find? fun p => r.pidStatus p ≠ .exited).any fun p => r.pidStatus p = .readable := by
  induction ps with
  | nil => rfl
  | cons p ps ih =>
    rw [detectPssLoop_cons, ih]
    cases hp : r.pidStatus p with
    | readable => simp [hp]
    | denied => simp [hp]
    | exited => simp [hp]

theorem detectPss_eq_true_iff (r : Reading) (sys : System) :
    detectPss r sys = true ↔ ∃ p, IsLeast (aliveForeign r sys) p ∧ r.pidStatus p = .readable := by
  have hset : {p | p ∈ (sys.processes.map Prod.fst).filter (· ≠ r.ownPid) ∧
      r.pidStatus p ≠ .exited} = aliveForeign r sys := by
    ext p
    simp [aliveForeign, System.pids, and_assoc]
  unfold detectPss
  rw [detectPssLoop_eq, Option.any_eq_true]
  simp only [find?_mergeSort, decide_eq_true_eq, hset]

/-- **Hash order does not matter to PSS detection.** -/
theorem detectPss_iff (r : Reading) (sys : System) :
    (detectPss r sys = true ↔
      ∃ p, IsLeast (aliveForeign r sys) p ∧ r.pidStatus p = .readable) ∧
    ∀ sys' : System, (∀ p, p ∈ sys'.pids ↔ p ∈ sys.pids) → detectPss r sys' = detectPss r sys := by
  refine ⟨detectPss_eq_true_iff r sys, fun sys' h => ?_⟩
  have halive : aliveForeign r sys' = aliveForeign r sys := by
    ext p
    exact and_congr_left' (h p)
  rw [Bool.eq_iff_iff, detectPss_eq_true_iff, detectPss_eq_true_iff, halive]

/-- Process 7 has exited, 9 can be read and 12 cannot. -/
def threeProcesses : Reading :=
  { Reading.quiet with
    smapsRollup := fun p => if p = 9 then some "Pss: 100 kB" else none
    procExists := fun p => p ≠ 7 }

def mapOf (pids : List Nat) : System :=
  ⟨.fin 0, [], 0, 0, pids.map fun p => (p, ⟨"worker", 0, 0, none, false⟩)⟩

@[simp] theorem mapOf_pids (pids : List Nat) : (mapOf pids).pids = pids := by
  rw [System.pids, mapOf, List.map_map]
  exact List.map_id _

theorem least_threeProcesses : IsLeast (aliveForeign threeProcesses (mapOf [1, 7, 9, 12])) 9 := by
  have h7 : threeProcesses.pidStatus 7 = .exited := by with_unfolding_all rfl
  have h9 : threeProcesses.pidStatus 9 = .readable := by with_unfolding_all rfl
  refine ⟨⟨by simp, by decide, by rw [h9]; decide⟩, ?_⟩
  rintro p ⟨hp, hown, hp7⟩
  rw [mapOf_pids] at hp
  simp only [List.mem_cons, List.not_mem_nil, or_false] at hp
  rcases hp with rfl | rfl | rfl | rfl
  · exact absurd rfl hown
  · exact absurd h7 hp7
  · decide
  · decide

/-- Process 9 decides, also where 12 comes first. -/
theorem detectPss_iff_threeProcesses :
    detectPss threeProcesses (mapOf [1, 7, 9, 12]) = true ∧
      detectPss threeProcesses (mapOf [12, 1, 9, 7]) =
        detectPss threeProcesses (mapOf [1, 7, 9, 12]) := by
  obtain ⟨hiff, horder⟩ := detectPss_iff threeProcesses (mapOf [1, 7, 9, 12])
  refine ⟨hiff.mpr ⟨9, least_threeProcesses, by with_unfolding_all rfl⟩, horder _ fun p => ?_⟩
  rw [mapOf_pids, mapOf_pids]
  exact List.Perm.mem_iff (by decide)

end Vigil.Metrics

import Mathlib.Algebra.Order.Field.Rat
import Mathlib.Tactic.FieldSimp
import Mathlib.Tactic.Linarith
import Vigil.Lib.Machine

/-!
# Machines in time

`M.timed K` plays the events of `M` at times that do not go back. The `Clock` `K`
keeps what the code remembers of past times, its timers among it, and says which
events may happen when: the end of a sleep not before it is due. Nothing happens
too early; that nothing happens too late is an assumption about the scheduler,
to be made of a run (`EachStep`) where it is needed.

* `Reaches.untimed`: without the times it is a run of `M`.
* `Spaced p ts`: successive times are at least `p` apart, so that a window has
  room for one of them in each `p` and one more (`Spaced.length_window_le`).
  `SpacedBy` is the invariant that a loop with a timer keeps.
* `Recent p ts t`: the last of the times is at `t` or later, the one before it at
  most `p` earlier, and so on. It is what a loop keeps that is never late.
-/

namespace Vigil.Lib

universe u v w

/-- The times a machine remembers, and when they let an event happen. -/
structure Clock (σ : Type u) (ε : Type v) (μ : Type w) where
  start : μ
  ready : μ → ℚ → ε → Bool
  /-- the memory after a step, given the states before and after it -/
  note : σ → μ → ℚ → ε → σ → μ

structure Timed (σ : Type u) (μ : Type w) where
  state : σ
  now : ℚ
  mem : μ

namespace Machine

variable {σ : Type u} {ε : Type v} {μ : Type w} {M : Machine σ ε} {K : Clock σ ε μ}

variable (M K) in
def timed : Machine (Timed σ μ) (ℚ × ε) where
  init := ⟨M.init, 0, K.start⟩
  step s e :=
    if s.now ≤ e.1 ∧ K.ready s.mem e.1 e.2 = true then
      (M.step s.state e.2).map fun s' => ⟨s', e.1, K.note s.state s.mem e.1 e.2 s'⟩
    else none

/-- What a timed step is. -/
structure TimedStep (M : Machine σ ε) (K : Clock σ ε μ) (s : Timed σ μ) (e : ℚ × ε)
    (s' : Timed σ μ) : Prop where
  later : s.now ≤ e.1
  ready : K.ready s.mem e.1 e.2 = true
  step : M.step s.state e.2 = some s'.state
  now : s'.now = e.1
  mem : s'.mem = K.note s.state s.mem e.1 e.2 s'.state

theorem timedStep {s s' : Timed σ μ} {e : ℚ × ε} (h : (M.timed K).step s e = some s') :
    TimedStep M K s e s' := by
  simp only [timed] at h
  split at h
  · next hg =>
    obtain ⟨t, ht, rfl⟩ := Option.map_eq_some_iff.mp h
    exact ⟨hg.1, hg.2, ht, rfl, rfl⟩
  · cases h

/-- **Without the times it is a run of the machine.** -/
theorem Reaches.untimed {es : List (ℚ × ε)} {s : Timed σ μ} (h : (M.timed K).Reaches es s) :
    M.Reaches (es.map Prod.snd) s.state := by
  have hsim := h.sim (N := M) (f := Timed.state) (g := fun e => [e.2]) rfl fun s e s' hs => by
    rw [run_cons, (timedStep hs).step]
    rfl
  rwa [← List.map_eq_flatMap] at hsim

end Machine

/-! ## Spacing -/

/-- From each time to every later one it is at least `p`. -/
def Spaced (p : ℚ) (ts : List ℚ) : Prop := ts.Pairwise fun a b => a + p ≤ b

namespace Spaced

variable {p : ℚ} {ts : List ℚ}

theorem mono {q : ℚ} (h : Spaced p ts) (hq : q ≤ p) : Spaced q ts := by
  refine List.Pairwise.imp ?_ h
  intro a b hab
  linarith

theorem span_le {t b : ℚ} (h : Spaced p (t :: ts)) (hb : ∀ x ∈ t :: ts, x ≤ b) :
    ts.length * p ≤ b - t := by
  induction ts generalizing t with
  | nil =>
    have := hb t List.mem_cons_self
    simpa using this
  | cons u us ih =>
    obtain ⟨ht, hu⟩ := List.pairwise_cons.mp h
    have htu := ht u List.mem_cons_self
    have hrest := ih hu fun x hx => hb x (List.mem_cons_of_mem _ hx)
    rw [List.length_cons, Nat.cast_succ]
    linarith

/-- **What fits a window.** -/
theorem length_window_le (hp : 0 < p) (h : Spaced p ts) {a b : ℚ} (hab : a ≤ b) :
    ((ts.filter fun t => a ≤ t ∧ t ≤ b).length : ℚ) ≤ (b - a) / p + 1 := by
  have hsub : Spaced p (ts.filter fun t => a ≤ t ∧ t ≤ b) := List.Pairwise.filter _ h
  have hmem : ∀ t ∈ ts.filter fun t => a ≤ t ∧ t ≤ b, a ≤ t ∧ t ≤ b := fun t ht => by
    simpa using (List.mem_filter.mp ht).2
  generalize ts.filter (fun t => a ≤ t ∧ t ≤ b) = us at hsub hmem
  cases us with
  | nil =>
    have : 0 ≤ (b - a) / p := div_nonneg (sub_nonneg.mpr hab) hp.le
    simp only [List.length_nil, Nat.cast_zero]
    linarith
  | cons u us =>
    have hspan := hsub.span_le fun x hx => (hmem x hx).2
    have hu := (hmem u List.mem_cons_self).1
    have hlen : (us.length : ℚ) ≤ (b - a) / p := by
      rw [le_div_iff₀ hp]
      linarith
    rw [List.length_cons, Nat.cast_succ]
    linarith

end Spaced

/-- The starts so far are spaced, and a start at `next` or later keeps them so. -/
structure SpacedBy (p : ℚ) (starts : List ℚ) (next : ℚ) : Prop where
  spaced : Spaced p starts
  gap : ∀ t ∈ starts, t + p ≤ next

namespace SpacedBy

variable {p next t : ℚ} {starts : List ℚ}

theorem none : SpacedBy p [] next := ⟨.nil, nofun⟩

theorem start (h : SpacedBy p starts next) (hp : 0 ≤ p) (ht : next ≤ t) :
    SpacedBy p (starts ++ [t]) (t + p) := by
  have hle : ∀ x ∈ starts, x + p ≤ t := fun x hx => (h.gap x hx).trans ht
  refine ⟨List.pairwise_append.mpr ⟨h.spaced, List.pairwise_singleton _ _, ?_⟩, ?_⟩
  · intro x hx y hy
    rw [List.mem_singleton.mp hy]
    exact hle x hx
  · intro x hx
    rcases List.mem_append.mp hx with hx | hx
    · have := hle x hx
      linarith
    · rw [List.mem_singleton.mp hx]

theorem wait {next' : ℚ} (h : SpacedBy p starts next) (hn : next ≤ next') :
    SpacedBy p starts next' :=
  ⟨h.spaced, fun t ht => (h.gap t ht).trans hn⟩

end SpacedBy

/-! ## Recency -/

/-- The time `j` places before the last is no more than `j` periods before `t`. -/
def Recent (p : ℚ) (ts : List ℚ) (t : ℚ) : Prop :=
  ∀ (j : Nat) x, ts.reverse[j]? = some x → t ≤ x + j * p

namespace Recent

variable {p t : ℚ} {ts : List ℚ}

theorem nil : Recent p [] t := nofun

theorem mono {t' : ℚ} (h : Recent p ts t) (ht : t' ≤ t) : Recent p ts t' :=
  fun j x hx => ht.trans (h j x hx)

/-- A period later there is one more. -/
theorem snoc {x : ℚ} (h : Recent p ts t) (hx : t + p ≤ x) : Recent p (ts ++ [x]) (t + p) := by
  intro j y hy
  rw [List.reverse_concat] at hy
  cases j with
  | zero =>
    obtain rfl : x = y := by simpa using hy
    simpa using hx
  | succ j =>
    have := h j y (by simpa using hy)
    push_cast
    linarith

end Recent

end Vigil.Lib

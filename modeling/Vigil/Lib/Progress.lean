import Mathlib.Data.List.Count
import Vigil.Lib.Machine

/-!
# Progress

Some events of a run count. A rank that no step raises, and that a step whose
event counts lowers, bounds how many of them there are before the run gets to a
goal: `Descends.reaches_goal`. The condition `C` on the steps is what the
environment is trusted with, and `Guarded` says that a run keeps to it.
-/

namespace Vigil.Lib.Machine

universe u v

variable {σ : Type u} {ε : Type v} {M : Machine σ ε}

variable (M) in
/-- Every step of the run `es` from `s` is taken in a state that meets `C` for its event. -/
def Guarded (C : σ → ε → Prop) (s : σ) (es : List ε) : Prop :=
  ∀ fs e u, fs ++ [e] <+: es → M.run s fs = some u → C u e

theorem Guarded.head {C : σ → ε → Prop} {s : σ} {e : ε} {es : List ε}
    (h : M.Guarded C s (e :: es)) : C s e := h [] e s (List.prefix_append _ _) rfl

theorem Guarded.tail {C : σ → ε → Prop} {s s' : σ} {e : ε} {es : List ε}
    (h : M.Guarded C s (e :: es)) (hs : M.step s e = some s') : M.Guarded C s' es := by
  intro fs x u hp hr
  refine h (e :: fs) x u (List.cons_prefix_cons.mpr ⟨rfl, hp⟩) ?_
  rw [run_cons, hs]
  exact hr

theorem guarded_of_forall {C : σ → ε → Prop} {s : σ} {es : List ε} (h : ∀ e ∈ es, ∀ u, C u e) :
    M.Guarded C s es :=
  fun _ e u hp _ => h e (hp.subset (List.mem_append_right _ (List.mem_singleton_self e))) u

variable (M) in
/-- `Guarded`, by playing the run. -/
def check (C : σ → ε → Prop) [∀ s e, Decidable (C s e)] : σ → List ε → Bool
  | _, [] => true
  | s, e :: es => decide (C s e) && (M.step s e).all fun s' => check C s' es

theorem guarded_of_check {C : σ → ε → Prop} [∀ s e, Decidable (C s e)] {s : σ} {es : List ε}
    (h : M.check C s es = true) : M.Guarded C s es := by
  intro fs x u hp hr
  induction es generalizing s fs with
  | nil => simp at hp
  | cons e es ih =>
    obtain ⟨he, hrest⟩ := Bool.and_eq_true_iff.mp h
    cases fs with
    | nil =>
      obtain ⟨rfl, -⟩ := List.cons_prefix_cons.mp hp
      obtain rfl : s = u := Option.some.inj hr
      exact of_decide_eq_true he
    | cons f fs =>
      obtain ⟨rfl, hpre⟩ := List.cons_prefix_cons.mp hp
      obtain ⟨s', hs, hrun⟩ := Option.bind_eq_some_iff.mp hr
      rw [hs] at hrest
      exact ih hrest fs hpre hrun

/-- A step that meets `C` reaches the goal, or it keeps `I` and lowers the rank if its event
counts. -/
def Descends (M : Machine σ ε) (C : σ → ε → Prop) (counts : ε → Bool) (I goal : σ → Prop)
    (rank : σ → Nat) : Prop :=
  ∀ s e s', I s → C s e → M.step s e = some s' →
    goal s' ∨ I s' ∧ rank s' + (counts e).toNat ≤ rank s

/-- **More events that count than the rank allows: the goal has been reached.** -/
theorem Descends.reaches_goal {C : σ → ε → Prop} {counts : ε → Bool} {I goal : σ → Prop}
    {rank : σ → Nat} (hd : M.Descends C counts I goal rank) {es : List ε} {s t : σ} (hi : I s)
    (hr : M.run s es = some t) (hg : M.Guarded C s es) (hn : rank s < es.countP counts) :
    ∃ fs gs u, es = fs ++ gs ∧ M.run s fs = some u ∧ goal u := by
  induction es generalizing s with
  | nil => simp at hn
  | cons e es ih =>
    obtain ⟨s', hs, hrest⟩ := Option.bind_eq_some_iff.mp hr
    rcases hd s e s' hi hg.head hs with hgoal | ⟨hi', hrank⟩
    · refine ⟨[e], es, s', rfl, ?_, hgoal⟩
      rw [run_cons, hs]
      rfl
    · have hn' : rank s' < es.countP counts := by
        rw [List.countP_cons] at hn
        cases hc : counts e <;> simp [hc] at hn hrank <;> omega
      obtain ⟨fs, gs, u, rfl, hu, hgoal⟩ := ih hi' hrest (hg.tail hs) hn'
      refine ⟨e :: fs, gs, u, rfl, ?_, hgoal⟩
      rw [run_cons, hs]
      exact hu

end Vigil.Lib.Machine

import Mathlib.Data.List.Induction
import Mathlib.Data.List.Basic

/-!
# Values refreshed every so often

`l` lists the updates of an object, oldest first. An update that fires replaces a
cached value by a fresh one; the others keep it. `cacheAfter` is the value after
the updates of `l`.

`due modulus every n` is the schedule of a counter that wraps at `modulus` and
fires when `every` divides it. Whatever the modulus, it never skips `every`
updates in a row: `exists_due` finds one that fired among the last `every`, and
`exists_fresh` that the cached value is the fresh one of such an update.
-/

namespace Vigil.Lib

universe u v

variable {τ : Type u} {α : Type v}

/-- The cached value after the updates `l`; `fires` is told the number of an update. -/
def cacheAfter (fires : Nat → Bool) (fresh : τ → α) (init : α) (l : List τ) : α :=
  (l.zipIdx).foldl (fun a x => if fires x.2 then fresh x.1 else a) init

@[simp] theorem cacheAfter_nil (fires : Nat → Bool) (fresh : τ → α) (init : α) :
    cacheAfter fires fresh init [] = init := rfl

@[simp] theorem cacheAfter_snoc (fires : Nat → Bool) (fresh : τ → α) (init : α) (l : List τ)
    (x : τ) : cacheAfter fires fresh init (l ++ [x]) =
      if fires l.length then fresh x else cacheAfter fires fresh init l := by
  simp [cacheAfter, List.zipIdx_append]

/-- The update `n` fires: the wrapping counter stands at a multiple of `every`. -/
def due (modulus every n : Nat) : Bool := n % modulus % every = 0

theorem exists_due (modulus : Nat) {every : Nat} (hk : 0 < every) (n : Nat) :
    ∃ j < every, j ≤ n ∧ due modulus every (n - j) = true := by
  refine ⟨n % modulus % every, Nat.mod_lt _ hk, ?_, ?_⟩
  · exact Nat.le_trans (Nat.mod_le _ _) (Nat.mod_le _ _)
  · have hj : n % modulus % every ≤ n % modulus := Nat.mod_le _ _
    have hn : n % modulus ≤ n := Nat.mod_le _ _
    -- stepping back inside the present round of the counter does not cross its wrap
    have hsub : (n - n % modulus % every) % modulus = n % modulus - n % modulus % every := by
      have h := Nat.div_add_mod n modulus
      have hrw : n - n % modulus % every =
          modulus * (n / modulus) + (n % modulus - n % modulus % every) := by omega
      rw [hrw, Nat.mul_add_mod]
      rcases Nat.eq_zero_or_pos modulus with rfl | hm
      · simp
      · exact Nat.mod_eq_of_lt (by have := Nat.mod_lt n hm; omega)
    rw [due, hsub, decide_eq_true_eq]
    exact Nat.mod_eq_zero_of_dvd (Nat.dvd_sub_mod _)

/-- If the update `j₀` places before the end fires, the cached value is the fresh one of that
update or of a later one. -/
theorem fresh_of_fires {fires : Nat → Bool} (fresh : τ → α) (init : α) {l : List τ} {j₀ : Nat}
    (hj : j₀ < l.length) (hf : fires (l.length - 1 - j₀) = true) :
    ∃ j ≤ j₀, ∃ x, l.reverse[j]? = some x ∧ fires (l.length - 1 - j) = true ∧
      cacheAfter fires fresh init l = fresh x := by
  induction l using List.reverseRecOn generalizing j₀ with
  | nil => simp at hj
  | append_singleton l a ih =>
    rw [List.length_append, List.length_singleton] at hj hf
    by_cases ha : fires l.length = true
    · exact ⟨0, Nat.zero_le _, a, by simp, by simpa using ha, by simp [ha]⟩
    · obtain _ | i := j₀
      · exact absurd (by simpa using hf) ha
      · rw [show l.length + 1 - 1 - (i + 1) = l.length - 1 - i by omega] at hf
        obtain ⟨j, hji, x, hx, hfx, hc⟩ := ih (by omega) hf
        refine ⟨j + 1, Nat.succ_le_succ hji, x, by simpa using hx, ?_, ?_⟩
        · rwa [List.length_append, List.length_singleton,
            show l.length + 1 - 1 - (j + 1) = l.length - 1 - j by omega]
        · rw [cacheAfter_snoc, if_neg ha, hc]

/-- **Bounded staleness.** On a schedule, the cached value after the last update is the fresh one
of an update that was due among the last `every`. -/
theorem exists_fresh (modulus every : Nat) (hk : 0 < every) (fresh : τ → α) (init : α)
    {l : List τ} (hl : l ≠ []) :
    ∃ j < every, ∃ x, l.reverse[j]? = some x ∧ due modulus every (l.length - 1 - j) = true ∧
      cacheAfter (due modulus every) fresh init l = fresh x := by
  have hpos : 0 < l.length := List.length_pos_of_ne_nil hl
  obtain ⟨j₀, hj₀, hle, hd⟩ := exists_due modulus hk (l.length - 1)
  obtain ⟨j, hj, x, hx⟩ := fresh_of_fires fresh init (by omega) hd
  exact ⟨j, by omega, x, hx⟩

end Vigil.Lib

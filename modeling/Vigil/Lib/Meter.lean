import Mathlib.Algebra.BigOperators.Ring.Finset
import Mathlib.Algebra.Order.BigOperators.Group.Finset
import Vigil.Lib.Counters
import Vigil.Lib.Rust

/-!
# Rates of a growing total

A meter reads a total at times `now 0, now 1, …`. It keeps a baseline, and
reports a rate against it: `held` is the baseline after some readings, `report`
what comes out at one of them. Where the baseline is always the reading before,
and each rate is within a half of the exact one, the rates integrate to the
growth of the total up to half the time (`abs_area_sub_le`): one rounding a
reading, and nothing is carried over. `area_sub_le` is the half of it that a
rate that is too low does not break.
-/

namespace Vigil.Lib

/-! ## A baseline threaded through a run -/

section Baseline

variable {τ ρ β : Type} (collect : Option β → τ → ρ × Option β) (ticks : Nat → τ)

/-- The baseline after the first `k` readings. -/
def held : Nat → Option β
  | 0 => none
  | k + 1 => (collect (held k) (ticks k)).2

def report (k : Nat) : ρ := (collect (held collect ticks k) (ticks k)).1

variable {collect ticks}

/-- A reading that always becomes the baseline is the one the next report is against. -/
theorem report_succ {reading : β} {k : Nat}
    (h : ∀ b, (collect b (ticks k)).2 = some reading) :
    report collect ticks (k + 1) = (collect (some reading) (ticks (k + 1))).1 := by
  rw [report, held, h]

end Baseline

/-! ## Rounding -/

theorem abs_roundHalfAway_sub_le (q : ℚ) : |(roundHalfAway q : ℚ) - q| ≤ 1 / 2 := by
  have hfloor : ∀ p : ℚ, |(⌊p + 1 / 2⌋ : ℚ) - p| ≤ 1 / 2 := by
    intro p
    have h1 := Int.floor_le (p + 1 / 2)
    have h2 := Int.lt_floor_add_one (p + 1 / 2)
    exact abs_le.mpr ⟨by linarith, by linarith⟩
  unfold roundHalfAway
  split
  · exact hfloor q
  · have h := hfloor (-q)
    rw [abs_sub_comm] at h
    push_cast
    rwa [show -(⌊-q + 1 / 2⌋ : ℚ) - q = -q - ⌊-q + 1 / 2⌋ by ring]

/-! ## The area under the rates -/

section Area

open Finset

variable {now : Nat → ℚ} (total rate : Nat → ℚ) {n : Nat}

/-- What the rates after the first say has passed by reading `n`. -/
def area (now rate : Nat → ℚ) (n : Nat) : ℚ :=
  ∑ i ∈ range n, rate (i + 1) * (now (i + 1) - now i)

/-- The area and the growth differ by what the rates are off, each times its time. -/
theorem area_sub (ht : ∀ i < n, now i < now (i + 1)) :
    area now rate n - (total n - total 0) = ∑ i ∈ range n,
      (rate (i + 1) - (total (i + 1) - total i) / (now (i + 1) - now i)) *
        (now (i + 1) - now i) := by
  rw [area, ← sum_range_sub total n, ← sum_sub_distrib]
  refine sum_congr rfl fun i hi => ?_
  have hpos : now (i + 1) - now i ≠ 0 := (sub_pos.mpr (ht i (mem_range.mp hi))).ne'
  rw [sub_mul, div_mul_cancel₀ _ hpos]

theorem half_time (now : Nat → ℚ) (n : Nat) :
    (now n - now 0) / 2 = ∑ i ∈ range n, 1 / 2 * (now (i + 1) - now i) := by
  rw [← mul_sum, sum_range_sub now n]
  ring

theorem area_sub_le (ht : ∀ i < n, now i < now (i + 1))
    (hr : ∀ i < n, rate (i + 1) - (total (i + 1) - total i) / (now (i + 1) - now i) ≤ 1 / 2) :
    area now rate n - (total n - total 0) ≤ (now n - now 0) / 2 := by
  rw [area_sub total rate ht, half_time now n]
  refine sum_le_sum fun i hi => ?_
  have hi := mem_range.mp hi
  exact mul_le_mul_of_nonneg_right (hr i hi) (sub_pos.mpr (ht i hi)).le

/-- **Nothing is lost or invented** beyond half the time. -/
theorem abs_area_sub_le (ht : ∀ i < n, now i < now (i + 1))
    (hr : ∀ i < n, |rate (i + 1) - (total (i + 1) - total i) / (now (i + 1) - now i)| ≤ 1 / 2) :
    |area now rate n - (total n - total 0)| ≤ (now n - now 0) / 2 := by
  rw [area_sub total rate ht, half_time now n]
  refine (abs_sum_le_sum_abs _ _).trans (sum_le_sum fun i hi => ?_)
  have hi := mem_range.mp hi
  have hpos : 0 < now (i + 1) - now i := sub_pos.mpr (ht i hi)
  rw [abs_mul, abs_of_pos hpos]
  exact mul_le_mul_of_nonneg_right (hr i hi) hpos.le

end Area

end Vigil.Lib

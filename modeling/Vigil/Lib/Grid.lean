import Vigil.Lib.Rust

/-!
# Rounding onto a grid

`roundDiv n d` is the quotient `n / d` rounded to the nearest integer, halves up:
on natural numbers it is `f64::round`. A quantity `x` is published on the grid of
step `d / c` as `quantise c d x`, and read back by truncation as `dequantise c d`.
Three facts about such a grid: what is read back is near (`abs_dequantise_sub_le`),
it is published as the same mark again (`quantise_dequantise`), and two
quantities add up on the grid exactly when their remainders do
(`roundDiv_add_iff`).
-/

namespace Vigil.Lib

/-- The nearest integer to `n / d`, halves up. -/
def roundDiv (n d : Nat) : Nat := (2 * n + d) / (2 * d)

variable {a b c d k n x : Nat}

theorem roundHalfAway_div (hd : 0 < d) : roundHalfAway ((n : ℚ) / d) = roundDiv n d := by
  have hd' : (d : ℚ) ≠ 0 := Nat.cast_ne_zero.mpr hd.ne'
  have hn : (0 : ℚ) ≤ (n : ℚ) / d := by positivity
  have hsum : (n : ℚ) / d + 1 / 2 = ((2 * n + d : Nat) : ℚ) / ((2 * d : Nat) : ℚ) := by
    push_cast
    field_simp
  rw [roundHalfAway, if_pos hn, hsum, Rat.floor_natCast_div_natCast, roundDiv]
  rfl

theorem roundDiv_eq_iff (hd : 0 < d) :
    roundDiv n d = k ↔ 2 * (k * d) ≤ 2 * n + d ∧ 2 * n < 2 * (k * d) + d := by
  rw [roundDiv, Nat.div_eq_iff (by omega), show k * (2 * d) = 2 * (k * d) by ring]
  omega

theorem roundDiv_mono (h : a ≤ b) : roundDiv a d ≤ roundDiv b d :=
  Nat.div_le_div_right (by omega)

theorem roundDiv_mul_add (hd : 0 < d) : roundDiv (d * k + n) d = k + roundDiv n d := by
  have h : 2 * (d * k + n) + d = 2 * n + d + 2 * d * k := by ring
  rw [roundDiv, h, Nat.add_mul_div_left _ _ (by omega), Nat.add_comm, roundDiv]

theorem roundDiv_of_lt (h : n < d) : roundDiv n d = if 2 * n < d then 0 else 1 := by
  split <;> exact (roundDiv_eq_iff (by omega)).mpr (by omega)

/-- Two remainders that add up to what they are rounded to: exactly one of them is at least a half,
or both stay below it together, or both are above it and so is what they leave. -/
def AddUp (p q d : Nat) : Prop :=
  (2 * p < d ↔ ¬ 2 * q < d) ∨ 2 * (p + q) < d ∨ 3 * d ≤ 2 * (p + q)

instance (p q d : Nat) : Decidable (AddUp p q d) := inferInstanceAs (Decidable (_ ∨ _))

theorem roundDiv_add_of_lt (ha : a < d) (hb : b < d) :
    roundDiv a d + roundDiv b d = roundDiv (a + b) d ↔ AddUp a b d := by
  have hd : 0 < d := by omega
  rw [eq_comm, roundDiv_eq_iff hd, roundDiv_of_lt ha, roundDiv_of_lt hb, AddUp]
  by_cases h1 : 2 * a < d
  · by_cases h2 : 2 * b < d
    · rw [if_pos h1, if_pos h2]
      omega
    · rw [if_pos h1, if_neg h2]
      omega
  · by_cases h2 : 2 * b < d
    · rw [if_neg h1, if_pos h2]
      omega
    · rw [if_neg h1, if_neg h2]
      omega

/-- **When two roundings add up** to the rounding of the sum. -/
theorem roundDiv_add_iff (hd : 0 < d) :
    roundDiv a d + roundDiv b d = roundDiv (a + b) d ↔ AddUp (a % d) (b % d) d := by
  have ha : roundDiv a d = a / d + roundDiv (a % d) d := by
    rw [← roundDiv_mul_add hd, Nat.div_add_mod]
  have hb : roundDiv b d = b / d + roundDiv (b % d) d := by
    rw [← roundDiv_mul_add hd, Nat.div_add_mod]
  have hab : roundDiv (a + b) d = a / d + b / d + roundDiv (a % d + b % d) d := by
    rw [← roundDiv_mul_add hd, Nat.mul_add]
    congr 1
    have := Nat.div_add_mod a d
    have := Nat.div_add_mod b d
    omega
  rw [← roundDiv_add_of_lt (Nat.mod_lt _ hd) (Nat.mod_lt _ hd), ha, hb, hab]
  omega

/-! ## There and back -/

/-- The mark of `x` on the grid of step `d / c`. -/
def quantise (c d x : Nat) : Nat := roundDiv (c * x) d

/-- The quantity a mark stands for, truncated. -/
def dequantise (c d k : Nat) : Nat := k * d / c

/-- The truncation loses less than `c`. -/
theorem dequantise_bounds (hc : 0 < c) :
    c * dequantise c d k ≤ k * d ∧ k * d < c * dequantise c d k + c := by
  refine ⟨Nat.mul_div_le _ _, ?_⟩
  rw [dequantise, ← Nat.mul_succ]
  exact Nat.lt_mul_div_succ _ hc

theorem quantise_mono (h : a ≤ b) : quantise c d a ≤ quantise c d b :=
  roundDiv_mono (Nat.mul_le_mul_left c h)

theorem dequantise_mono (h : a ≤ b) : dequantise c d a ≤ dequantise c d b :=
  Nat.div_le_div_right (Nat.mul_le_mul_right d h)

/-- **Reading back does not move the mark**, as the truncation loses less than half a step. -/
theorem quantise_dequantise (hc : 0 < c) (h : 2 * c ≤ d) :
    quantise c d (dequantise c d k) = k := by
  obtain ⟨hle, hlt⟩ := dequantise_bounds (d := d) (k := k) hc
  exact (roundDiv_eq_iff (by omega)).mpr ⟨by omega, by omega⟩

/-- What is read back is within half a step and one of what was published. -/
theorem abs_dequantise_sub_le (hc : 0 < c) (hd : 0 < d) :
    |(dequantise c d (quantise c d x) : ℚ) - x| ≤ d / (2 * c) + 1 := by
  have hc' : (0 : ℚ) < c := Nat.cast_pos.mpr hc
  obtain ⟨h1, h2⟩ := (roundDiv_eq_iff (n := c * x) (k := quantise c d x) hd).mp rfl
  obtain ⟨hle, hlt⟩ := dequantise_bounds (d := d) (k := quantise c d x) hc
  generalize dequantise c d (quantise c d x) = y at hle hlt ⊢
  have hup : (2 * (c * y) : ℚ) ≤ 2 * (c * x) + d := by
    exact_mod_cast show 2 * (c * y) ≤ 2 * (c * x) + d by omega
  have hlo : (2 * (c * x) : ℚ) ≤ 2 * (c * y) + d + 2 * c := by
    exact_mod_cast show 2 * (c * x) ≤ 2 * (c * y) + d + 2 * c by omega
  have hstep : (d : ℚ) / (2 * c) * (2 * c) = d := div_mul_cancel₀ _ (by positivity)
  refine abs_le.mpr ⟨?_, ?_⟩
  · refine le_of_mul_le_mul_right ?_ (show (0 : ℚ) < 2 * c by positivity)
    linarith
  · refine le_of_mul_le_mul_right ?_ (show (0 : ℚ) < 2 * c by positivity)
    linarith

end Vigil.Lib

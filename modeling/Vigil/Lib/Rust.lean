import Mathlib.Algebra.Order.Floor.Semiring
import Mathlib.Data.Rat.Floor
import Mathlib.Tactic.Linarith
import Mathlib.Tactic.NormNum

/-!
# Values and outcomes of Rust code

* `F64`: a double as the exact rational it stands for, an infinity or NaN.
  Arithmetic on finite doubles is exact: rounding after an operation is not
  modelled, only the conversion of a large integer (`natToF64`) rounds, where
  it is the result itself.
* `F64.asU64`: the saturating `as u64` cast.
* `Duration`: seconds in the range `Duration::from_secs_f64` accepts, with the
  range as fields; `fromSecsF64` is `none` where the Rust function panics.
* `Flow`: what running an expression can come to: a value, an error that `?`
  or `bail!` hands to the caller, or a panic.
* `checkedAdd`, `checkedMul`: the plain operators on `u64` in a debug build,
  which panic where `wrapAdd` and `wrapMul` wrap.
-/

namespace Vigil.Lib

/-- `u64::MAX`. -/
def u64Max : Nat := 2 ^ 64 - 1

/-- `u64::saturating_add`. -/
def satAdd (a b : Nat) : Nat := min (a + b) u64Max

/-- `u64::saturating_mul`. -/
def satMul (a b : Nat) : Nat := min (a * b) u64Max

/-- `a + b` on `u64` in a release build: it wraps. -/
def wrapAdd (a b : Nat) : Nat := (a + b) % 2 ^ 64

/-- `a * b` on `u64` in a release build: it wraps. -/
def wrapMul (a b : Nat) : Nat := a * b % 2 ^ 64

/-- The cast `x as u64` of an integral double: it saturates at both ends. -/
def intToU64 (z : ℤ) : Nat := min z.toNat u64Max

theorem foldl_satAdd (l : List Nat) {a : Nat} (ha : a ≤ u64Max) :
    l.foldl satAdd a = min (a + l.sum) u64Max := by
  induction l generalizing a with
  | nil => simp [ha]
  | cons x xs ih =>
    have hx : satAdd a x ≤ u64Max := min_le_right _ _
    rw [List.foldl_cons, ih hx, List.sum_cons]
    unfold satAdd
    omega

/-- A saturating sum from zero is the exact sum, cut off at the end of the range. -/
theorem foldl_satAdd_zero (l : List Nat) : l.foldl satAdd 0 = min l.sum u64Max := by
  rw [foldl_satAdd l (Nat.zero_le _), Nat.zero_add]

theorem intToU64_eq_iff {z : ℤ} (hz : 0 ≤ z) : (intToU64 z : ℤ) = z ↔ z ≤ u64Max := by
  unfold intToU64
  omega

/-- `f64::round` on a rational: to the nearest integer, halves away from zero. -/
def roundHalfAway (q : ℚ) : ℤ := if 0 ≤ q then ⌊q + 1 / 2⌋ else -⌊-q + 1 / 2⌋

theorem roundHalfAway_nonneg {q : ℚ} (hq : 0 ≤ q) : 0 ≤ roundHalfAway q := by
  rw [roundHalfAway, if_pos hq]
  exact Int.floor_nonneg.mpr (by linarith)

theorem roundHalfAway_mono {p q : ℚ} (h : p ≤ q) : roundHalfAway p ≤ roundHalfAway q := by
  unfold roundHalfAway
  split
  · next hp =>
    rw [if_pos (hp.trans h)]
    exact Int.floor_mono (by linarith)
  · next hp =>
    have h1 : 0 ≤ ⌊-p + 1 / 2⌋ := Int.floor_nonneg.mpr (by linarith)
    split
    · next hq =>
      have h2 : 0 ≤ ⌊q + 1 / 2⌋ := Int.floor_nonneg.mpr (by linarith)
      omega
    · exact neg_le_neg (Int.floor_mono (by linarith))

inductive F64 where
  | nan
  | inf (neg : Bool)
  | fin (q : ℚ)
  deriving DecidableEq

/-- An unsigned integer as a double: exact below `2^53`, else rounded to 53 significant bits,
halves to the even significand. -/
def natToF64 (n : Nat) : ℚ :=
  if n < 2 ^ 53 then n
  else
    let u := 2 ^ (Nat.log2 n - 52)
    let lo := n / u * u
    if 2 * (n % u) < u ∨ (2 * (n % u) = u ∧ n / u % 2 = 0) then lo else (lo + u : Nat)

/-- A bound that a double holds exactly is kept by the conversion, both ways. -/
theorem natToF64_le_iff {n b : Nat} (hb : b < 2 ^ 52) : natToF64 n ≤ b ↔ n ≤ b := by
  unfold natToF64
  split
  · exact Nat.cast_le
  · next hn =>
    -- past `2^53` the result is at least `n / u * u`, which loses less than the unit `u`
    have hn' : 2 ^ 53 ≤ n := Nat.not_lt.mp hn
    have hlog : 53 ≤ Nat.log2 n := (Nat.le_log2 (by omega)).mpr hn'
    have hu : 2 ^ 52 * 2 ^ (Nat.log2 n - 52) ≤ n := by
      rw [← pow_add, Nat.add_sub_cancel' (by omega)]
      exact Nat.log2_self_le (by omega)
    have hpos : 0 < 2 ^ (Nat.log2 n - 52) := Nat.pow_pos (by norm_num)
    generalize 2 ^ (Nat.log2 n - 52) = u at hu hpos
    have hlo : b < n / u * u := by
      have hdiv : 2 ^ 52 ≤ n / u := (Nat.le_div_iff_mul_le hpos).mpr hu
      exact lt_of_lt_of_le hb (hdiv.trans (Nat.le_mul_of_pos_right _ hpos))
    dsimp only
    refine iff_of_false ?_ (by omega)
    rw [not_le]
    split
    · exact Nat.cast_lt.mpr hlo
    · exact Nat.cast_lt.mpr (by omega)

namespace F64

instance : Coe ℚ F64 := ⟨fin⟩

/-- `x == 0.0`. -/
def isZero : F64 → Bool
  | fin q => q == 0
  | _ => false

def isFinite : F64 → Bool
  | fin _ => true
  | _ => false

/-- `f64::max`: when one side is NaN the other is the result. -/
def max : F64 → F64 → F64
  | nan, b => b
  | a, nan => a
  | inf true, b => b
  | a, inf true => a
  | inf false, _ => inf false
  | _, inf false => inf false
  | fin p, fin q => fin (Max.max p q)

/-- A function on doubles that keeps NaN and the infinities, such as rounding to some decimals. -/
def map (f : ℚ → ℚ) : F64 → F64
  | fin q => fin (f q)
  | x => x

/-- Multiplication by a positive finite constant. -/
def scale (k : ℚ) : F64 → F64
  | nan => nan
  | inf b => inf b
  | fin q => fin (q * k)

/-- The cast `x as u64`: truncation, saturating at both ends; NaN gives `0`. -/
def asU64 : F64 → Nat
  | nan => 0
  | inf neg => if neg then 0 else u64Max
  | fin q => min ⌊q⌋₊ u64Max

@[simp] theorem max_fin (p q : ℚ) : F64.max (fin p) (fin q) = fin (Max.max p q) := rfl

end F64

/-! ## Durations -/

/-- A `std::time::Duration`, in seconds. -/
@[ext] structure Duration where
  secs : ℚ
  nonneg : 0 ≤ secs
  fits : secs < 2 ^ 64
  deriving DecidableEq

theorem second_fits : (1 : ℚ) < 2 ^ 64 := by norm_num

def second : Duration := ⟨1, zero_le_one, second_fits⟩

/-- `Duration::from_secs_f64`, `none` where it panics: on a negative value, on one that is not
finite, and on one whose seconds do not fit a `u64`. -/
def fromSecsF64 : F64 → Option Duration
  | .fin q => if h : 0 ≤ q ∧ q < 2 ^ 64 then some ⟨q, h.1, h.2⟩ else none
  | _ => none

theorem fromSecsF64_fin_isSome {q : ℚ} :
    (fromSecsF64 (.fin q)).isSome ↔ 0 ≤ q ∧ q < 2 ^ 64 := by
  unfold fromSecsF64
  split <;> simp_all

theorem fromSecsF64_secs {x : F64} {d : Duration} (h : fromSecsF64 x = some d) :
    x = .fin d.secs := by
  cases x with
  | nan => cases h
  | inf neg => cases h
  | fin q =>
    simp only [fromSecsF64, Option.dite_none_right_eq_some, Option.some.injEq] at h
    obtain ⟨_, rfl⟩ := h
    rfl

/-- Clamping from below to a positive floor leaves only the upper end of the range to fail. -/
theorem fromSecsF64_max_isSome {q r : ℚ} (hr : 0 ≤ r) (hr' : r < 2 ^ 64) :
    (fromSecsF64 ((F64.fin q).max (.fin r))).isSome ↔ q < 2 ^ 64 := by
  rw [F64.max_fin, fromSecsF64_fin_isSome]
  constructor
  · rintro ⟨-, h⟩; exact lt_of_le_of_lt (le_max_left _ _) h
  · intro h; exact ⟨le_max_of_le_right hr, max_lt h hr'⟩

/-! ## Outcomes -/

universe u

inductive Flow (α : Type u) where
  | ok (a : α)
  | err (msg : String)
  | panic
  deriving DecidableEq

namespace Flow

variable {α β : Type u}

def bind : Flow α → (α → Flow β) → Flow β
  | ok a, f => f a
  | err m, _ => err m
  | panic, _ => panic

instance : Monad Flow where
  pure := ok
  bind := bind

/-- A partial std function: `none` is its panic. -/
def ofPartial : Option α → Flow α
  | some a => ok a
  | none => panic

def isPanic : Flow α → Bool
  | panic => true
  | _ => false

@[simp] theorem pure_eq (a : α) : (pure a : Flow α) = ok a := rfl
@[simp] theorem ok_bind (a : α) (f : α → Flow β) : (ok a >>= f) = f a := rfl
@[simp] theorem err_bind (m : String) (f : α → Flow β) : ((err m : Flow α) >>= f) = err m := rfl
@[simp] theorem panic_bind (f : α → Flow β) : ((panic : Flow α) >>= f) = panic := rfl

@[simp] theorem isPanic_ok (a : α) : (ok a).isPanic = false := rfl
@[simp] theorem isPanic_err (m : String) : (err m : Flow α).isPanic = false := rfl
@[simp] theorem isPanic_panic : (panic : Flow α).isPanic = true := rfl

theorem isPanic_ofPartial (o : Option α) : (ofPartial o).isPanic = o.isNone := by
  cases o <;> rfl

end Flow

/-! ## Checked arithmetic -/

/-- `a + b` on `u64` in a debug build: it panics past the range. -/
def checkedAdd (a b : Nat) : Flow Nat := if a + b ≤ u64Max then .ok (a + b) else .panic

/-- `a * b` on `u64` in a debug build: it panics past the range. -/
def checkedMul (a b : Nat) : Flow Nat := if a * b ≤ u64Max then .ok (a * b) else .panic

/-- Within the range both builds agree. -/
theorem wrapAdd_of_le {a b : Nat} (h : a + b ≤ u64Max) : wrapAdd a b = a + b :=
  Nat.mod_eq_of_lt (by unfold u64Max at h; omega)

theorem wrapMul_of_le {a b : Nat} (h : a * b ≤ u64Max) : wrapMul a b = a * b :=
  Nat.mod_eq_of_lt (by unfold u64Max at h; omega)

/-- A saturated sum does not overflow the next factor exactly when the exact sum does not. -/
theorem min_mul_le_iff {n c : Nat} (hc : 1 < c) : min n u64Max * c ≤ u64Max ↔ n * c ≤ u64Max := by
  rcases Nat.le_total n u64Max with h | h
  · rw [min_eq_left h]
  · have h1 : u64Max * 2 ≤ u64Max * c := Nat.mul_le_mul_left _ hc
    have h2 : u64Max * c ≤ n * c := Nat.mul_le_mul_right _ h
    rw [min_eq_right h]
    unfold u64Max at *
    omega

/-- Two saturated products add up within the range exactly when one of them is zero or the exact
sum fits. -/
theorem satMul_add_satMul_le_iff {a b c : Nat} :
    satMul a c + satMul b c ≤ u64Max ↔ (a + b) * c ≤ u64Max ∨ a = 0 ∨ b = 0 := by
  have hpos : 0 < u64Max := by decide
  have hsum : (a + b) * c = a * c + b * c := Nat.add_mul ..
  unfold satMul
  constructor
  · intro h
    by_cases hfit : (a + b) * c ≤ u64Max
    · exact .inl hfit
    · -- one product saturates, so the other one is zero
      rcases Nat.eq_zero_or_pos (a * c) with ha | ha
      · rcases Nat.mul_eq_zero.mp ha with ha | hc
        · exact .inr (.inl ha)
        · exact absurd (by rw [hc, Nat.mul_zero]; exact hpos.le) hfit
      · have hb : b * c = 0 := by omega
        rcases Nat.mul_eq_zero.mp hb with hb | hc
        · exact .inr (.inr hb)
        · exact absurd (by rw [hc, Nat.mul_zero]; exact hpos.le) hfit
  · rintro (h | rfl | rfl)
    · omega
    · simp
    · simp

end Vigil.Lib

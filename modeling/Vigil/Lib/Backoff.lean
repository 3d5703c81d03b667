import Mathlib.Algebra.Order.Field.Basic
import Mathlib.Data.Rat.Lemmas
import Mathlib.Data.List.Infix
import Mathlib.Tactic.Linarith
import Mathlib.Tactic.Positivity

/-!
# Retry with a growing delay

A supervisor restarts a job. After each end of the job it waits; the delay
grows by a factor from one wait to the next, up to a cap, and some ends put it
back to its first value.

* `Backoff.delay k` is the delay after `k` waits without a reset.
* A log lists the ends of the job and the waits. `since r l` counts the waits of
  `l` after the last end that `r` resets on.
* `Lawful r l`: every wait of `l` is the one that resets on `r` ask for.
* `Produced r cur l`: a supervisor that resets on `r` can have produced the log
  `l` and then holds `cur` for the next end.

A supervisor is lawful for its own resets (`Produced.cur_eq`). Measured against
further resets it does not make, it stays lawful exactly as long as none is due
after a wait (`Produced.lawful_iff`).
-/

namespace Vigil.Lib

universe u

/-! ## Lists at a position -/

/-- A property of every position of a list, given what stands before it, from the front. -/
theorem forall_split_snoc {α : Type u} {P : List α → α → Prop} {l : List α} {a : α} :
    (∀ pre x post, l ++ [a] = pre ++ x :: post → P pre x) ↔
      (∀ pre x post, l = pre ++ x :: post → P pre x) ∧ P l a := by
  constructor
  · intro h
    refine ⟨fun pre x post hl => h pre x (post ++ [a]) ?_, h l a [] rfl⟩
    rw [hl, List.append_assoc, List.cons_append]
  · rintro ⟨h, ha⟩ pre x post hl
    rcases List.eq_nil_or_concat post with rfl | ⟨post', b, rfl⟩
    · obtain ⟨rfl, hx⟩ := List.append_inj' hl rfl
      cases hx
      exact ha
    · rw [List.concat_eq_append, ← List.cons_append, ← List.append_assoc] at hl
      exact h pre x post' (List.append_inj' hl rfl).1

/-! ## Delays -/

structure Backoff where
  first : ℚ
  growth : ℚ
  cap : ℚ
  first_pos : 0 < first
  one_lt_growth : 1 < growth
  first_lt_cap : first < cap

namespace Backoff

variable (b : Backoff)

/-- The delay after `k` waits. -/
def delay (k : Nat) : ℚ := min b.cap (b.first * b.growth ^ k)

def next (d : ℚ) : ℚ := min (d * b.growth) b.cap

@[simp] theorem delay_zero : b.delay 0 = b.first := by
  rw [delay, pow_zero, mul_one, min_eq_right b.first_lt_cap.le]

theorem next_delay (k : Nat) : b.next (b.delay k) = b.delay (k + 1) := by
  have hg : 0 < b.growth := lt_trans one_pos b.one_lt_growth
  have hc : 0 < b.cap := b.first_pos.trans b.first_lt_cap
  have hcap : b.cap ≤ b.cap * b.growth := le_mul_of_one_le_right hc.le b.one_lt_growth.le
  rw [next, delay, delay, min_mul_of_nonneg _ _ hg.le, pow_succ, ← mul_assoc, min_comm,
    ← min_assoc, min_eq_left hcap]

theorem first_lt_delay_succ (k : Nat) : b.first < b.delay (k + 1) := by
  refine lt_min b.first_lt_cap ?_
  exact lt_mul_of_one_lt_right b.first_pos (one_lt_pow₀ b.one_lt_growth k.succ_ne_zero)

theorem delay_eq_first_iff {k : Nat} : b.delay k = b.first ↔ k = 0 := by
  cases k with
  | zero => simp
  | succ k => exact iff_of_false (b.first_lt_delay_succ k).ne' k.succ_ne_zero

theorem delay_nonneg (k : Nat) : 0 ≤ b.delay k := by
  have hg : 0 < b.growth := lt_trans one_pos b.one_lt_growth
  exact le_min (b.first_pos.trans b.first_lt_cap).le (mul_pos b.first_pos (pow_pos hg k)).le

theorem delay_le_cap (k : Nat) : b.delay k ≤ b.cap := min_le_left _ _

end Backoff

/-! ## Logs -/

inductive RetryEntry (ε : Type u) where
  | ended (e : ε)
  | waited (d : ℚ)

namespace RetryEntry

variable {ε : Type u}

def isWait : RetryEntry ε → Bool
  | waited _ => true
  | ended _ => false

/-- An end that `r` resets on. -/
def isReset (r : ε → Bool) : RetryEntry ε → Bool
  | ended e => r e
  | waited _ => false

@[simp] theorem isWait_waited (d : ℚ) : (waited d : RetryEntry ε).isWait = true := rfl

@[simp] theorem isWait_ended (e : ε) : (ended e : RetryEntry ε).isWait = false := rfl

@[simp] theorem isReset_waited (r : ε → Bool) (d : ℚ) :
    (waited d : RetryEntry ε).isReset r = false := rfl

@[simp] theorem isReset_ended (r : ε → Bool) (e : ε) :
    (ended e : RetryEntry ε).isReset r = r e := rfl

end RetryEntry

open RetryEntry

variable {ε : Type u}

/-- The number of waits after the last reset. -/
def since (r : ε → Bool) (l : List (RetryEntry ε)) : Nat :=
  (l.reverse.takeWhile fun x => !x.isReset r).countP isWait

@[simp] theorem since_nil (r : ε → Bool) : since r [] = 0 := rfl

@[simp] theorem since_ended (r : ε → Bool) (l : List (RetryEntry ε)) (e : ε) :
    since r (l ++ [.ended e]) = if r e then 0 else since r l := by
  cases h : r e <;> simp [since, h]

@[simp] theorem since_waited (r : ε → Bool) (l : List (RetryEntry ε)) (d : ℚ) :
    since r (l ++ [.waited d]) = since r l + 1 := by
  simp [since, List.countP_cons]

/-- Every wait of the log has the length its place asks for. -/
def Lawful (b : Backoff) (r : ε → Bool) (l : List (RetryEntry ε)) : Prop :=
  ∀ pre x post, l = pre ++ x :: post → ∀ d, x = .waited d → d = b.delay (since r pre)

/-- An end on which `w` resets and `r` does not is the first entry of the log. -/
def OnlyFirst (r w : ε → Bool) (l : List (RetryEntry ε)) : Prop :=
  ∀ pre x post, l = pre ++ x :: post → ∀ e, x = .ended e → w e = true → r e = false → pre = []

theorem lawful_snoc {b : Backoff} {r : ε → Bool} {l : List (RetryEntry ε)} {e : ε} {d : ℚ} :
    Lawful b r (l ++ [.ended e] ++ [.waited d]) ↔
      Lawful b r l ∧ d = b.delay (if r e then 0 else since r l) := by
  unfold Lawful
  rw [forall_split_snoc, forall_split_snoc]
  simp

theorem onlyFirst_snoc {r w : ε → Bool} {l : List (RetryEntry ε)} {e : ε} {d : ℚ} :
    OnlyFirst r w (l ++ [.ended e] ++ [.waited d]) ↔
      OnlyFirst r w l ∧ (w e = true → r e = false → l = []) := by
  unfold OnlyFirst
  rw [forall_split_snoc, forall_split_snoc]
  simp

/-! ## What a supervisor produces -/

/-- After the end `e` the supervisor waits for `first` if it resets, else for what it holds. -/
def Backoff.wait (b : Backoff) (r : ε → Bool) (cur : ℚ) (e : ε) : ℚ := if r e then b.first else cur

inductive Produced (b : Backoff) (r : ε → Bool) : ℚ → List (RetryEntry ε) → Prop where
  | start : Produced b r b.first []
  | cycle {cur : ℚ} {l : List (RetryEntry ε)} (e : ε) : Produced b r cur l →
      Produced b r (b.next (b.wait r cur e)) (l ++ [.ended e] ++ [.waited (b.wait r cur e)])

namespace Produced

variable {b : Backoff} {r w : ε → Bool} {cur : ℚ} {l : List (RetryEntry ε)}

theorem wait_eq {e : ε} (h : cur = b.delay (since r l)) :
    b.wait r cur e = b.delay (if r e then 0 else since r l) := by
  unfold Backoff.wait
  split <;> simp [h]

/-- What the supervisor holds is the delay for the waits since its last reset. -/
theorem cur_eq (h : Produced b r cur l) : cur = b.delay (since r l) := by
  induction h with
  | start => simp
  | cycle e _ ih => rw [wait_eq ih, b.next_delay, since_waited, since_ended]

theorem lawful (h : Produced b r cur l) : Lawful b r l := by
  induction h with
  | start => intro pre x post h; simp at h
  | cycle e hp ih => exact lawful_snoc.mpr ⟨ih, wait_eq hp.cur_eq⟩

theorem since_pos (h : Produced b r cur l) (hl : l ≠ []) (w : ε → Bool) : 0 < since w l := by
  cases h with
  | start => exact absurd rfl hl
  | cycle e _ => rw [since_waited]; exact Nat.succ_pos _

/-- While no further reset is due after a wait, both counts agree. -/
theorem since_eq (himp : ∀ e, r e = true → w e = true) (h : Produced b r cur l)
    (hf : OnlyFirst r w l) : since w l = since r l := by
  induction h with
  | start => rfl
  | cycle e _ ih =>
    obtain ⟨hf, he⟩ := onlyFirst_snoc.mp hf
    have := ih hf
    rw [since_waited, since_waited, since_ended, since_ended]
    cases hw : w e <;> cases hr : r e
    · simp [this]
    · simp [himp e hr] at hw
    · simp [he hw hr]
    · simp

/-- **The resets a supervisor misses.** It is lawful for `w` exactly when every end on which `w`
resets and the supervisor does not is the first entry of the log. -/
theorem lawful_iff (himp : ∀ e, r e = true → w e = true) (h : Produced b r cur l) :
    Lawful b w l ↔ OnlyFirst r w l := by
  induction h with
  | start => exact iff_of_true (fun _ _ _ h => by simp at h) (fun _ _ _ h => by simp at h)
  | @cycle cur l e hp ih =>
    rw [lawful_snoc, onlyFirst_snoc, ih, wait_eq hp.cur_eq]
    refine and_congr_right fun hf => ?_
    rw [hp.since_eq himp hf]
    cases hw : w e <;> cases hr : r e
    · simp
    · simp [himp e hr] at hw
    · -- the missed reset: the supervisor waits as if the job had not come up
      have hz : since r l = 0 ↔ l = [] := by
        refine ⟨fun h0 => by_contra fun hl => ?_, fun hl => by simp [hl]⟩
        exact absurd h0 (hp.since_pos hl r).ne'
      simp [b.delay_eq_first_iff, hz]
    · simp

end Produced

end Vigil.Lib

import Vigil.Lib.Grid
import Vigil.Metrics.System

/-!
# Figures in GiB

A byte count is published in GiB with two decimals, that is on the grid of step
`2^30 / 100`. The three figures of `Mem` are rounded each on its own, so the
identity that holds of the bytes holds of the figures only where the remainders
add up: `mem_identity_iff`.
-/

namespace Vigil.Metrics

open Vigil.Lib

/-- The hundredths of a GiB that `bytes_to_gib` rounds to. -/
def hundredths (x : Nat) : Nat := quantise 100 (2 ^ 30) x

theorem bytesToGib_eq (x : Nat) : bytesToGib x = (hundredths x : ℚ) / 100 := by
  have hscale : (x : ℚ) / 1024 ^ 3 * 100 = ((100 * x : Nat) : ℚ) / ((2 ^ 30 : Nat) : ℚ) := by
    push_cast
    ring
  rw [bytesToGib, round2, hscale, roundHalfAway_div (by norm_num)]
  rfl

theorem bytesToGib_add_eq_iff {x y z : Nat} :
    bytesToGib x + bytesToGib y = bytesToGib z ↔ hundredths x + hundredths y = hundredths z := by
  rw [bytesToGib_eq, bytesToGib_eq, bytesToGib_eq, ← add_div, div_left_inj' (by norm_num)]
  exact_mod_cast Iff.rfl

end Vigil.Metrics

namespace Vigil

open Vigil.Lib Vigil.Metrics

def Mem.AddsUp (m : Mem) : Prop :=
  ∃ used free, m.used = .fin used ∧ m.free = .fin free ∧ m.total = .fin (used + free)

namespace Metrics

/-- **When `used + free == total`** of the published figures: when the remainders of used and
available memory on the grid add up. -/
theorem mem_identity_iff {sys : System} (h : sys.availableMemory ≤ sys.totalMemory) :
    (collectMem sys).AddsUp ↔
      AddUp (100 * (sys.totalMemory - sys.availableMemory) % 2 ^ 30)
        (100 * sys.availableMemory % 2 ^ 30) (2 ^ 30) := by
  have hfig : (collectMem sys).AddsUp ↔
      bytesToGib (sys.totalMemory - sys.availableMemory) + bytesToGib sys.availableMemory =
        bytesToGib sys.totalMemory := by
    constructor
    · rintro ⟨used, free, hu, hf, ht⟩
      cases hu
      cases hf
      exact (F64.fin.inj ht).symm
    · intro he
      exact ⟨_, _, rfl, rfl, congrArg F64.fin he.symm⟩
  have hsum : 100 * sys.totalMemory =
      100 * (sys.totalMemory - sys.availableMemory) + 100 * sys.availableMemory := by
    omega
  rw [hfig, bytesToGib_add_eq_iff, hundredths, hundredths, hundredths, quantise, quantise, quantise,
    hsum, roundDiv_add_iff (by norm_num)]

def halfAvailable (half : Nat) : System := ⟨.fin 0, [], 2 * half, half, []⟩

theorem mem_identity_iff_eightGib :
    (halfAvailable (4 * 2 ^ 30)).availableMemory ≤ (halfAvailable (4 * 2 ^ 30)).totalMemory ∧
      (collectMem (halfAvailable (4 * 2 ^ 30))).AddsUp :=
  ⟨by decide, (mem_identity_iff (by decide)).mpr (by decide)⟩

/-- Two halves of 4 GiB and 3 MB are published as 4.00 each, and their sum as 8.01. -/
theorem mem_identity_breaks : ∃ sys : System, sys.availableMemory ≤ sys.totalMemory ∧
    collectMem sys = ⟨.fin (801 / 100), .fin 4, .fin 4, .fin 50⟩ ∧ ¬ (collectMem sys).AddsUp := by
  have hmem : collectMem (halfAvailable (4 * 2 ^ 30 + 3000000)) =
      ⟨.fin (801 / 100), .fin 4, .fin 4, .fin 50⟩ := by
    decide +kernel
  refine ⟨halfAvailable (4 * 2 ^ 30 + 3000000), by decide, hmem, ?_⟩
  rw [hmem]
  rintro ⟨used, free, hu, hf, ht⟩
  cases hu
  cases hf
  exact absurd (F64.fin.inj ht) (by norm_num)

end Metrics

end Vigil

import Mathlib.Algebra.Order.Floor.Semifield
import Vigil.Hub.Flatten
import Vigil.Metrics.Gib

/-!
# Byte counts that go through GiB

The hub is told bytes, but a snapshot holds them in GiB with two decimals. So
`flatten` turns a figure back into bytes, by scaling and truncation, and what
the hub shows is that count rounded again. On counts up to the ceiling nothing
drifts: the count read back is a mark of the same grid.
-/

namespace Vigil.Hub

open Vigil.Lib Vigil.Metrics

/-- A figure of so many hundredths, in bytes. -/
theorem gibToBytes_hundredths (k : Nat) :
    gibToBytes (.fin ((k : ℚ) / 100)) = min (dequantise 100 (2 ^ 30) k) bytesCeiling := by
  have hscale : (k : ℚ) / 100 * 1024 ^ 3 = ((k * 2 ^ 30 : Nat) : ℚ) / ((100 : Nat) : ℚ) := by
    push_cast
    ring
  have hle : bytesCeiling ≤ u64Max := by decide
  rw [gibToBytes, F64.scale, hscale, F64.asU64, Nat.floor_div_eq_div, dequantise, min_assoc,
    min_eq_right hle]

/-- Up to the ceiling the ceiling does nothing. -/
theorem gibToBytes_bytesToGib {x : Nat} (hx : x ≤ bytesCeiling) :
    gibToBytes (.fin (bytesToGib x)) = dequantise 100 (2 ^ 30) (hundredths x) := by
  have htop : dequantise 100 (2 ^ 30) (hundredths x) ≤ bytesCeiling :=
    calc dequantise 100 (2 ^ 30) (hundredths x)
        ≤ dequantise 100 (2 ^ 30) (hundredths bytesCeiling) := dequantise_mono (quantise_mono hx)
      _ = bytesCeiling := by decide
  rw [bytesToGib_eq, gibToBytes_hundredths, min_eq_left htop]

theorem gibToBytes_bytesToGib_mono {x y : Nat} (h : x ≤ y) :
    gibToBytes (.fin (bytesToGib x)) ≤ gibToBytes (.fin (bytesToGib y)) := by
  rw [bytesToGib_eq, bytesToGib_eq, gibToBytes_hundredths, gibToBytes_hundredths]
  exact min_le_min_right _ (dequantise_mono (quantise_mono h))

/-- **Byte counts survive the detour** as well as two decimals allow: the count is off by at most
half a hundredth and one byte, it is published as the same figure, and counts keep their order. -/
theorem gib_detour {x : Nat} (hx : x ≤ bytesCeiling) :
    |(gibToBytes (.fin (bytesToGib x)) : ℚ) - x| ≤ 5 / 1000 * 2 ^ 30 + 1 ∧
      bytesToGib (gibToBytes (.fin (bytesToGib x))) = bytesToGib x ∧
      ∀ y ≤ bytesCeiling, x ≤ y →
        gibToBytes (.fin (bytesToGib x)) ≤ gibToBytes (.fin (bytesToGib y)) := by
  refine ⟨?_, ?_, fun y _ hxy => gibToBytes_bytesToGib_mono hxy⟩
  · have h := abs_dequantise_sub_le (c := 100) (d := 2 ^ 30) (x := x) (by norm_num) (by norm_num)
    rw [gibToBytes_bytesToGib hx]
    refine h.trans (le_of_eq ?_)
    norm_num
  · have h : hundredths (dequantise 100 (2 ^ 30) (hundredths x)) = hundredths x :=
      quantise_dequantise (by norm_num) (by norm_num)
    rw [gibToBytes_bytesToGib hx, bytesToGib_eq, h, ← bytesToGib_eq]

theorem gib_detour_sixteenGib : 2 ^ 34 + 1 ≤ bytesCeiling ∧
    bytesToGib (gibToBytes (.fin (bytesToGib (2 ^ 34 + 1)))) = bytesToGib (2 ^ 34 + 1) :=
  ⟨by decide, (gib_detour (by decide)).2.1⟩

end Vigil.Hub

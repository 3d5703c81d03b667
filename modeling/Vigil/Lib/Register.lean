import Mathlib.Data.List.Infix

/-!
# Reads of a register with one writer

`hist` lists the values a register has held, the current one last. A read is
tagged with the `version` it saw, its position in `hist`, and `sees` says which
value it shows. `InOrder` says of a list of reads, oldest first, that each shows
the value of its version and that none shows an older version than a read before
it. Writes and reads of the current value keep it.
-/

namespace Vigil.Lib

universe u v

variable {α : Type u} {ρ : Type v}

structure InOrder (version : ρ → Nat) (sees : ρ → α → Prop) (hist : List α) (rs : List ρ) :
    Prop where
  valid : ∀ r ∈ rs, ∃ a, hist[version r]? = some a ∧ sees r a
  sorted : rs.Pairwise fun r r' => version r ≤ version r'

namespace InOrder

variable {version : ρ → Nat} {sees : ρ → α → Prop} {hist : List α} {rs : List ρ}

theorem nil : InOrder version sees hist [] := ⟨by simp, .nil⟩

theorem write (h : InOrder version sees hist rs) (as : List α) :
    InOrder version sees (hist ++ as) rs := by
  refine ⟨fun r hr => ?_, h.sorted⟩
  obtain ⟨a, ha, hs⟩ := h.valid r hr
  exact ⟨a, by rwa [List.getElem?_append_left (List.getElem?_eq_some_iff.mp ha).1], hs⟩

/-- Reading the value at the end of the history. -/
theorem read (h : InOrder version sees hist rs) {r : ρ} {a : α} (hr : hist.length = version r + 1)
    (ha : hist[version r]? = some a) (hs : sees r a) : InOrder version sees hist (rs ++ [r]) := by
  refine ⟨fun x hx => ?_, List.pairwise_append.mpr ⟨h.sorted, List.pairwise_singleton _ _, ?_⟩⟩
  · rcases List.mem_append.mp hx with hx | hx
    · exact h.valid x hx
    · rw [List.mem_singleton.mp hx]
      exact ⟨a, ha, hs⟩
  · intro x hx y hy
    rw [List.mem_singleton.mp hy]
    obtain ⟨b, hb, -⟩ := h.valid x hx
    have := (List.getElem?_eq_some_iff.mp hb).1
    omega

theorem sublist {rs' : List ρ} (h : InOrder version sees hist rs) (hs : rs'.Sublist rs) :
    InOrder version sees hist rs' :=
  ⟨fun r hr => h.valid r (hs.subset hr), h.sorted.sublist hs⟩

end InOrder

end Vigil.Lib

import Mathlib.Algebra.BigOperators.Group.Finset.Basic
import Mathlib.Algebra.Order.Ring.Nat
import Vigil.Lib.Map

/-!
# Counters of devices

A reading is a finite map from devices to counters that only grow while a device
is there; a device may also appear, vanish, or start its counter over. `gained`
is what the devices of one reading show more than another reading does, with 0
for a device the other does not have. Read backwards it is what has been lost,
and `total_add` is the balance of the two: a difference of totals is the gains
less the losses.
-/

namespace Vigil.Lib

/-- A map from devices to counters. -/
abbrev Counters (κ : Type) := List (κ × Nat)

namespace Counters

variable {κ α : Type}

def Distinct (c : Counters κ) : Prop := (c.map Prod.fst).Nodup

def total (c : Counters κ) : Nat := (c.map Prod.snd).sum

/-- One counter of a table of devices. -/
def column (f : α → Nat) (devices : List (κ × α)) : Counters κ :=
  devices.map fun d => (d.1, f d.2)

@[simp] theorem column_fst (f : α → Nat) (devices : List (κ × α)) :
    (column f devices).map Prod.fst = devices.map Prod.fst := by
  simp [column]

@[simp] theorem column_snd (f : α → Nat) (devices : List (κ × α)) :
    (column f devices).map Prod.snd = (devices.map Prod.snd).map f := by
  simp [column]

theorem distinct_column {f : α → Nat} {devices : List (κ × α)}
    (h : (devices.map Prod.fst).Nodup) : (column f devices).Distinct := by
  rwa [Distinct, column_fst]

variable [DecidableEq κ]

/-- The counter of a device, 0 where it is not there. -/
def count (c : Counters κ) (k : κ) : Nat := ((c.find? (·.1 = k)).map Prod.snd).getD 0

/-- What the devices of `cur` count beyond `prev`. -/
def gained (prev cur : Counters κ) : Nat := (cur.map fun d => d.2 - prev.count d.1).sum

/-- No device of `prev` has vanished or counts less. -/
def Keeps (prev cur : Counters κ) : Prop := ∀ d ∈ prev, d.2 ≤ cur.count d.1

variable {c prev cur : Counters κ}

theorem count_of_mem (hd : c.Distinct) {d : κ × Nat} (h : d ∈ c) : c.count d.1 = d.2 := by
  rw [count, Map.find?_of_mem hd h]
  rfl

theorem count_of_notMem {k : κ} (h : k ∉ c.map Prod.fst) : c.count k = 0 := by
  have hnone : c.find? (·.1 = k) = none := by
    refine List.find?_eq_none.mpr fun d hd => ?_
    simpa using fun he => h (List.mem_map.mpr ⟨d, hd, he⟩)
  rw [count, hnone]
  rfl

/-- A sum over the devices of a reading, as a sum over any set that has them all. -/
theorem sum_map_eq (hd : c.Distinct) {f : κ → Nat → Nat} (h0 : ∀ k, f k 0 = 0) {s : Finset κ}
    (hs : (c.map Prod.fst).toFinset ⊆ s) :
    (c.map fun d => f d.1 d.2).sum = ∑ k ∈ s, f k (c.count k) := by
  calc (c.map fun d => f d.1 d.2).sum
      = (c.map fun d => f d.1 (c.count d.1)).sum := by
        refine congrArg List.sum (List.map_congr_left fun d hm => ?_)
        rw [count_of_mem hd hm]
    _ = ((c.map Prod.fst).map fun k => f k (c.count k)).sum := by
        rw [List.map_map]
        rfl
    _ = ∑ k ∈ (c.map Prod.fst).toFinset, f k (c.count k) := (List.sum_toFinset _ hd).symm
    _ = ∑ k ∈ s, f k (c.count k) := by
        refine Finset.sum_subset hs fun k _ hk => ?_
        rw [count_of_notMem (by simpa using hk), h0]

/-- **The balance of two readings.** -/
theorem total_add (hp : prev.Distinct) (hc : cur.Distinct) :
    cur.total + gained cur prev = prev.total + gained prev cur := by
  let s := (prev.map Prod.fst).toFinset ∪ (cur.map Prod.fst).toFinset
  have hps : (prev.map Prod.fst).toFinset ⊆ s := Finset.subset_union_left
  have hcs : (cur.map Prod.fst).toFinset ⊆ s := Finset.subset_union_right
  rw [total, total, gained, gained, sum_map_eq hc (f := fun _ n => n) (fun _ => rfl) hcs,
    sum_map_eq hp (f := fun _ n => n) (fun _ => rfl) hps,
    sum_map_eq hp (f := fun k n => n - cur.count k) (fun _ => Nat.zero_sub _) hps,
    sum_map_eq hc (f := fun k n => n - prev.count k) (fun _ => Nat.zero_sub _) hcs,
    ← Finset.sum_add_distrib, ← Finset.sum_add_distrib]
  refine Finset.sum_congr rfl fun k _ => ?_
  omega

/-- A difference of totals is the gains less the losses. -/
theorem total_sub (hp : prev.Distinct) (hc : cur.Distinct) :
    cur.total - prev.total = gained prev cur - gained cur prev := by
  have := total_add hp hc
  omega

theorem Keeps.lost (h : prev.Keeps cur) : gained cur prev = 0 := by
  refine List.sum_eq_zero fun n hn => ?_
  obtain ⟨d, hd, rfl⟩ := List.mem_map.mp hn
  exact Nat.sub_eq_zero_of_le (h d hd)

/-- Where nothing is lost the total does not fall. -/
theorem Keeps.total_le (h : prev.Keeps cur) (hp : prev.Distinct) (hc : cur.Distinct) :
    prev.total ≤ cur.total := by
  have := total_add hp hc
  have := h.lost
  omega

end Counters

end Vigil.Lib

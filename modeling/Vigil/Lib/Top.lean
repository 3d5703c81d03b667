import Mathlib.Data.List.Sort
import Mathlib.Order.Bounds.Basic

/-!
# The largest elements of a list

`IsTop n key l t` says that `t` holds `n` elements of `l` with the largest keys,
or all of them where there are fewer, from the largest down. Which of two
elements with the same key is taken is left open; the keys themselves are not
(`IsTop.keys`).

`streamTop` finds the top elements by a key that is costly to read, walking the
candidates by a falling upper bound of it and stopping as soon as the bound says
that no later candidate can get in. `isTop_streamTop` is its exactness; where the
bound is wrong, what it returns is still a ranking (`Ranks.streamTop`).

`find?_mergeSort` is about the other end: what a scan in ascending order stops
at is the least element with the property.
-/

namespace Vigil.Lib

universe u v w

variable {α : Type u} {β : Type v} {κ : Type w} [LinearOrder κ]

def Falling (key : α → κ) (l : List α) : Prop := l.Pairwise fun a b => key b ≤ key a

def sortFalling (key : α → κ) (l : List α) : List α := l.mergeSort fun a b => key b ≤ key a

structure IsTop (n : Nat) (key : α → κ) (l t : List α) : Prop where
  falling : Falling key t
  length : t.length = min n l.length
  split : ∃ rest, (t ++ rest).Perm l ∧ ∀ a ∈ t, ∀ b ∈ rest, key b ≤ key a

variable {n : Nat} {key : α → κ} {l t : List α}

theorem sortFalling_perm (key : α → κ) (l : List α) : (sortFalling key l).Perm l :=
  List.mergeSort_perm l _

theorem falling_sortFalling (key : α → κ) (l : List α) : Falling key (sortFalling key l) := by
  have htrans : ∀ a b c : α, decide (key b ≤ key a) = true → decide (key c ≤ key b) = true →
      decide (key c ≤ key a) = true := by
    intro a b c hab hbc
    rw [decide_eq_true_eq] at hab hbc ⊢
    exact hbc.trans hab
  have htotal : ∀ a b : α, (decide (key b ≤ key a) || decide (key a ≤ key b)) = true := by
    intro a b
    simpa using le_total (key b) (key a)
  have h := List.pairwise_mergeSort htrans htotal l
  simpa [Falling, sortFalling] using h

theorem Falling.getLast_le (h : Falling key l) {z a : α} (hz : l.getLast? = some z) (ha : a ∈ l) :
    key z ≤ key a := by
  obtain ⟨ys, rfl⟩ := List.getLast?_eq_some_iff.mp hz
  rcases List.mem_append.mp ha with ha | ha
  · exact (List.pairwise_append.mp h).2.2 a ha z (List.mem_singleton_self z)
  · rw [List.mem_singleton.mp ha]

namespace IsTop

theorem nil : IsTop n key [] [] := ⟨.nil, by simp, [], .refl _, by simp⟩

theorem congr {l' : List α} (h : IsTop n key l t) (hp : l.Perm l') : IsTop n key l' t := by
  obtain ⟨rest, hr, hle⟩ := h.split
  exact ⟨h.falling, by rw [h.length, hp.length_eq], rest, hr.trans hp, hle⟩

theorem take {s : List α} (hf : Falling key s) (hp : s.Perm l) : IsTop n key l (s.take n) := by
  have hsplit : Falling key (s.take n ++ s.drop n) := by rwa [List.take_append_drop]
  obtain ⟨ht, -, hle⟩ := List.pairwise_append.mp hsplit
  refine ⟨ht, by rw [List.length_take, hp.length_eq], s.drop n, ?_, hle⟩
  rwa [List.take_append_drop]

theorem subset (h : IsTop n key l t) : t ⊆ l := by
  obtain ⟨rest, hp, -⟩ := h.split
  exact fun a ha => hp.subset (List.mem_append_left _ ha)

theorem nodup_map {γ : Type*} {f : α → γ} (h : IsTop n key l t) (hn : (l.map f).Nodup) :
    (t.map f).Nodup := by
  obtain ⟨rest, hp, -⟩ := h.split
  have := (hp.map f).nodup_iff.mpr hn
  rw [List.map_append] at this
  exact this.of_append_left

/-- What is left out is no larger than what is taken. -/
theorem le_of_notMem (h : IsTop n key l t) {a b : α} (ha : a ∈ t) (hb : b ∈ l) (hbt : b ∉ t) :
    key b ≤ key a := by
  obtain ⟨rest, hp, hle⟩ := h.split
  rcases List.mem_append.mp (hp.mem_iff.mpr hb) with hm | hm
  · exact absurd hm hbt
  · exact hle a ha b hm

theorem perm_of_length_lt (h : IsTop n key l t) (hl : t.length < n) : t.Perm l := by
  obtain ⟨rest, hp, -⟩ := h.split
  have hlen := hp.length_eq
  have := h.length
  rw [List.length_append] at hlen
  have hrest : rest = [] := List.eq_nil_of_length_eq_zero (by omega)
  rwa [hrest, List.append_nil] at hp

/-- **The keys are determined**: they are the largest keys of the list. -/
theorem keys (h : IsTop n key l t) : t.map key = ((l.map key).mergeSort (· ≥ ·)).take n := by
  obtain ⟨rest, hp, hle⟩ := h.split
  let s := t.map key ++ (rest.map key).mergeSort (· ≥ ·)
  have hs : s.Pairwise (· ≥ ·) := by
    refine List.pairwise_append.mpr ⟨?_, List.pairwise_mergeSort' _ _, ?_⟩
    · exact List.pairwise_map.mpr h.falling
    · intro x hx y hy
      obtain ⟨a, ha, rfl⟩ := List.mem_map.mp hx
      obtain ⟨b, hb, rfl⟩ := List.mem_map.mp (List.mem_mergeSort.mp hy)
      exact hle a ha b hb
  have hperm : s.Perm ((l.map key).mergeSort (· ≥ ·)) := by
    refine .trans ?_ (List.mergeSort_perm _ _).symm
    refine .trans ?_ (hp.map key)
    rw [List.map_append]
    exact (List.mergeSort_perm _ _).append_left _
  have heq : s = (l.map key).mergeSort (· ≥ ·) :=
    hperm.eq_of_pairwise' hs (List.pairwise_mergeSort' _ _)
  rw [← heq]
  have hlen : t.length = min n (t.length + rest.length) := by
    rw [← List.length_append, hp.length_eq]
    exact h.length
  rcases Nat.lt_or_ge t.length n with hlt | hge
  · have hrest : rest = [] := List.eq_nil_of_length_eq_zero (by omega)
    simp only [s, hrest, List.map_nil, List.mergeSort_nil, List.append_nil]
    rw [List.take_of_length_le (by rw [List.length_map]; omega)]
  · rw [List.take_append_of_le_length (by rw [List.length_map]; omega),
      List.take_of_length_le (by rw [List.length_map]; omega)]

end IsTop

/-! ## Streaming -/

/-- Take one more element into the top `n`. -/
def pushTop (n : Nat) (key : α → κ) (top : List α) (x : α) : List α :=
  let s := sortFalling key (top ++ [x])
  if n < s.length then s.dropLast else s

/-- What falls out of the top joins the rest. -/
theorem perm_fallOut {d rest : List α} {z x : α} (hp : (d ++ [z]).Perm (t ++ [x]))
    (hr : (t ++ rest).Perm l) : (d ++ z :: rest).Perm (l ++ [x]) :=
  calc (d ++ z :: rest).Perm ((d ++ [z]) ++ rest) := by simp
    _ |>.Perm ((t ++ [x]) ++ rest) := hp.append_right rest
    _ |>.Perm ((t ++ rest) ++ [x]) := by
        rw [List.append_assoc, List.append_assoc]
        exact List.perm_append_comm.append_left t
    _ |>.Perm (l ++ [x]) := hr.append_right [x]

/-- The rest stays below, as what falls out is an old element or the new one, and then all old ones
stay. -/
theorem fallOut_le {d rest : List α} {z x : α} (hp : (d ++ [z]).Perm (t ++ [x]))
    (hz : ∀ a ∈ d, key z ≤ key a) (hle : ∀ a ∈ t, ∀ b ∈ rest, key b ≤ key a) :
    ∀ a ∈ d, ∀ b ∈ z :: rest, key b ≤ key a := by
  intro a ha b hb
  rcases List.mem_cons.mp hb with rfl | hb
  · exact hz a ha
  · have hzt : z ∈ t ++ [x] := hp.subset (List.mem_append_right _ (List.mem_singleton_self z))
    rcases List.mem_append.mp hzt with hzt | hzx
    · exact (hle z hzt b hb).trans (hz a ha)
    · rw [List.mem_singleton.mp hzx] at hp
      exact hle a (((List.perm_append_right_iff [x]).mp hp).subset ha) b hb

theorem IsTop.push (h : IsTop n key l t) (x : α) : IsTop n key (l ++ [x]) (pushTop n key t x) := by
  have hf := falling_sortFalling key (t ++ [x])
  have hp := sortFalling_perm key (t ++ [x])
  have hlen := hp.length_eq
  have htl := h.length
  rw [List.length_append, List.length_singleton] at hlen
  unfold pushTop
  dsimp only
  generalize sortFalling key (t ++ [x]) = s at hf hp hlen ⊢
  split
  · next hn =>
    obtain ⟨rest, hr, hle⟩ := h.split
    have hne : s ≠ [] := by
      rintro rfl
      simp at hlen
    have hs := List.dropLast_append_getLast hne
    generalize s.getLast hne = z at hs
    rw [← hs] at hf hp
    obtain ⟨hfd, -, hz⟩ := List.pairwise_append.mp hf
    refine ⟨hfd, ?_, z :: rest, perm_fallOut hp hr, ?_⟩
    · rw [List.length_dropLast, List.length_append, List.length_singleton]
      omega
    · exact fallOut_le hp (fun a ha => hz a ha z (List.mem_singleton_self z)) hle
  · next hn =>
    have htp := h.perm_of_length_lt (by omega)
    refine ⟨hf, ?_, [], ?_, by simp⟩
    · rw [hlen, List.length_append, List.length_singleton]
      omega
    · rw [List.append_nil]
      exact hp.trans (htp.append_right [x])

/-- A full top stays the top when nothing larger follows. -/
theorem IsTop.stop (h : IsTop n key l t) (hn : t.length = n) {more : List α}
    (hm : ∀ b ∈ more, ∀ a ∈ t, key b ≤ key a) : IsTop n key (l ++ more) t := by
  obtain ⟨rest, hp, hle⟩ := h.split
  have := h.length
  refine ⟨h.falling, ?_, rest ++ more, ?_, ?_⟩
  · rw [List.length_append]
    omega
  · rw [← List.append_assoc]
    exact hp.append_right more
  · intro a ha b hb
    rcases List.mem_append.mp hb with hb | hb
    · exact hle a ha b hb
    · exact hm b hb a ha

/-- Walk the candidates, reading the costly value `f x` of each, until the bound of the next one is
no larger than the last of a full top. -/
def streamTop (n : Nat) (f : α → β) (bound : α → κ) (key : β → κ) : List β → List α → List β
  | top, [] => top
  | top, x :: xs =>
    if top.length = n ∧ top.getLast?.any (fun t => bound x ≤ key t) = true then top
    else streamTop n f bound key (pushTop n key top (f x)) xs

/-- **The streaming top is exact**, from any point of the walk on. -/
theorem isTop_streamTop {f : α → β} {bound : α → κ} {key : β → κ}
    {xs : List α} (hb : ∀ x ∈ xs, key (f x) ≤ bound x) (hx : Falling bound xs)
    {seen top : List β} (h : IsTop n key seen top) :
    IsTop n key (seen ++ xs.map f) (streamTop n f bound key top xs) := by
  induction xs generalizing seen top with
  | nil => simpa [streamTop] using h
  | cons x xs ih =>
    obtain ⟨hle, hxs⟩ := List.pairwise_cons.mp hx
    unfold streamTop
    split
    · next hstop =>
      obtain ⟨hn, hlast⟩ := hstop
      obtain ⟨z, hz, hbz⟩ := (Option.any_eq_true _ _).mp hlast
      refine h.stop hn fun b hm a ha => ?_
      obtain ⟨y, hy, rfl⟩ := List.mem_map.mp hm
      have hyx : bound y ≤ bound x := by
        rcases List.mem_cons.mp hy with rfl | hy
        · exact le_rfl
        · exact hle y hy
      calc key (f y) ≤ bound y := hb y hy
        _ ≤ bound x := hyx
        _ ≤ key z := of_decide_eq_true hbz
        _ ≤ key a := h.falling.getLast_le hz ha
    · have := ih (fun y hy => hb y (List.mem_cons_of_mem x hy)) hxs (h.push (f x))
      rwa [List.append_assoc] at this

/-! ## Whatever the bound -/

/-- `t` ranks at most `n` elements of `l`, from the largest key down. -/
structure Ranks (n : Nat) (key : α → κ) (l t : List α) : Prop where
  falling : Falling key t
  length : t.length ≤ n
  subperm : t.Subperm l

namespace Ranks

theorem of_isTop (h : IsTop n key l t) : Ranks n key l t := by
  obtain ⟨rest, hp, -⟩ := h.split
  have := h.length
  exact ⟨h.falling, by omega, (List.sublist_append_left t rest).subperm.trans hp.subperm⟩

theorem nodup_map {γ : Type*} {f : α → γ} (h : Ranks n key l t) (hn : (l.map f).Nodup) :
    (t.map f).Nodup := by
  obtain ⟨s, hs, hsub⟩ := h.subperm
  exact (hs.map f).nodup_iff.mp (hn.sublist (hsub.map f))

theorem mono {l' : List α} (h : Ranks n key l t) (hl : l.Subperm l') : Ranks n key l' t :=
  ⟨h.falling, h.length, h.subperm.trans hl⟩

theorem push (h : Ranks n key l t) (x : α) : Ranks n key (l ++ [x]) (pushTop n key t x) := by
  have hf := falling_sortFalling key (t ++ [x])
  have hp := sortFalling_perm key (t ++ [x])
  have hlen := hp.length_eq
  have htl := h.length
  have hsub := hp.subperm.trans ((List.subperm_append_right [x]).mpr h.subperm)
  rw [List.length_append, List.length_singleton] at hlen
  unfold pushTop
  dsimp only
  split
  · have hdrop := List.dropLast_sublist (sortFalling key (t ++ [x]))
    refine ⟨hf.sublist hdrop, ?_, hdrop.subperm.trans hsub⟩
    rw [List.length_dropLast]
    omega
  · exact ⟨hf, by omega, hsub⟩

/-- **A streaming walk ranks**, also where its bound is none. -/
theorem streamTop {f : α → β} {bound : α → κ} {key : β → κ} {seen top : List β}
    (h : Ranks n key seen top) (xs : List α) :
    Ranks n key (seen ++ xs.map f) (streamTop n f bound key top xs) := by
  induction xs generalizing seen top with
  | nil => simpa [Lib.streamTop] using h
  | cons x xs ih =>
    unfold Lib.streamTop
    split
    · exact h.mono (List.sublist_append_left _ _).subperm
    · have := ih (h.push (f x))
      rwa [List.append_assoc] at this

end Ranks

/-! ## The first hit of an ascending scan -/

theorem find?_eq_some_iff_isLeast {l : List κ} (hl : l.Pairwise (· ≤ ·)) {p : κ → Bool} {a : κ} :
    l.find? p = some a ↔ IsLeast {x | x ∈ l ∧ p x} a := by
  induction l with
  | nil => simp [IsLeast]
  | cons x xs ih =>
    obtain ⟨hx, hxs⟩ := List.pairwise_cons.mp hl
    by_cases hp : p x
    · have hleast : IsLeast {y | y ∈ x :: xs ∧ p y} x := by
        refine ⟨⟨List.mem_cons_self, hp⟩, fun y hy => ?_⟩
        rcases List.mem_cons.mp hy.1 with rfl | hm
        · exact le_rfl
        · exact hx y hm
      rw [List.find?_cons_of_pos hp, Option.some_inj]
      constructor
      · rintro rfl
        exact hleast
      · exact hleast.unique
    · have hset : {y | y ∈ x :: xs ∧ p y} = {y | y ∈ xs ∧ p y} := by
        ext y
        constructor
        · rintro ⟨hm, hy⟩
          rcases List.mem_cons.mp hm with rfl | hm
          · exact absurd hy hp
          · exact ⟨hm, hy⟩
        · exact fun hy => ⟨List.mem_cons_of_mem x hy.1, hy.2⟩
      rw [List.find?_cons_of_neg hp, ih hxs, hset]

/-- After sorting, the scan stops at the least hit of the list as it came. -/
theorem find?_mergeSort {l : List κ} {p : κ → Bool} {a : κ} :
    (l.mergeSort (· ≤ ·)).find? p = some a ↔ IsLeast {x | x ∈ l ∧ p x} a := by
  rw [find?_eq_some_iff_isLeast (List.pairwise_mergeSort' _ l)]
  simp only [List.mem_mergeSort]

end Vigil.Lib

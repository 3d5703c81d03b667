import Mathlib.Data.List.Induction
import Mathlib.Data.List.Sort
import Mathlib.Data.String.Basic

/-!
# Maps with string keys

A `BTreeMap<String, V>` is the list of its entries, and a `BTreeSet<String>` the
list of its keys, in ascending order. A `HashMap<String, V>` is the list of its
entries in the order of their insertion.
-/

namespace Vigil.Lib.Map

variable {α : Type}

/-- `BTreeMap::insert`: an entry with the same key is overwritten. -/
def insert (k : String) (v : α) : List (String × α) → List (String × α)
  | [] => [(k, v)]
  | kv :: m =>
    if k = kv.1 then (k, v) :: m
    else if k < kv.1 then (k, v) :: kv :: m
    else kv :: insert k v m

theorem insert_ne_nil (k : String) (v : α) (m : List (String × α)) : insert k v m ≠ [] := by
  cases m with
  | nil => simp [insert]
  | cons kv m =>
    unfold insert
    split
    · simp
    · split <;> simp

theorem mem_keys_insert {k a : String} {v : α} {m : List (String × α)} :
    a ∈ (insert k v m).map Prod.fst ↔ a = k ∨ a ∈ m.map Prod.fst := by
  induction m with
  | nil => simp [insert]
  | cons kv m ih =>
    unfold insert
    split
    · next h => simp [h]
    · split
      · simp
      · rw [List.map_cons, List.mem_cons, ih, List.map_cons, List.mem_cons]
        exact or_left_comm

/-- A fold that adds the key of each element it meets has the keys of the elements. -/
theorem mem_keys_foldl {β : Type} {g : List (String × α) → String × β → List (String × α)}
    {a : String} (hg : ∀ m x, a ∈ (g m x).map Prod.fst ↔ a = x.1 ∨ a ∈ m.map Prod.fst)
    {l : List (String × β)} {m : List (String × α)} :
    a ∈ (l.foldl g m).map Prod.fst ↔ a ∈ l.map Prod.fst ∨ a ∈ m.map Prod.fst := by
  induction l generalizing m with
  | nil => simp
  | cons x xs ih =>
    rw [List.foldl_cons, ih, hg, List.map_cons, List.mem_cons]
    exact or_left_comm.trans or_assoc.symm

/-- `BTreeSet::insert`. -/
def insertKey (k : String) : List String → List String
  | [] => [k]
  | x :: xs =>
    if k = x then x :: xs
    else if k < x then k :: x :: xs
    else x :: insertKey k xs

/-- `*map.entry(k).or_insert(init)`, changed by `f`. -/
def upsert (k : String) (init : α) (f : α → α) : List (String × α) → List (String × α)
  | [] => [(k, f init)]
  | kv :: m => if kv.1 = k then (k, f kv.2) :: m else kv :: upsert k init f m

/-- Looking up a key finds its entry. -/
theorem find?_of_mem {κ : Type} [DecidableEq κ] {m : List (κ × α)} (hd : (m.map Prod.fst).Nodup)
    {kv : κ × α} (h : kv ∈ m) : m.find? (·.1 = kv.1) = some kv := by
  induction m with
  | nil => cases h
  | cons x m ih =>
    obtain ⟨hx, hm⟩ := List.nodup_cons.mp hd
    rcases List.mem_cons.mp h with rfl | h
    · simp
    · have hne : x.1 ≠ kv.1 := fun he => hx (he ▸ List.mem_map_of_mem h)
      rw [List.find?_cons_of_neg (by simpa using hne)]
      exact ih hm h

theorem find?_insert {k k' : String} {v : α} {m : List (String × α)} :
    (insert k v m).find? (·.1 = k') = if k = k' then some (k, v) else m.find? (·.1 = k') := by
  induction m with
  | nil => by_cases h : k = k' <;> simp [insert, h]
  | cons kv m ih =>
    unfold insert
    by_cases hk : k = k'
    · rw [if_pos hk] at ih ⊢
      split
      · simp [hk]
      · next hne =>
        split
        · simp [hk]
        · rw [List.find?_cons_of_neg (by simpa [← hk] using Ne.symm hne), ih]
    · rw [if_neg hk] at ih ⊢
      split
      · next heq =>
        rw [List.find?_cons_of_neg (by simpa using hk),
          List.find?_cons_of_neg (by simpa [← heq] using hk)]
      · split
        · rw [List.find?_cons_of_neg (by simpa using hk)]
        · rw [List.find?_cons, List.find?_cons, ih]

/-- Keys in ascending order, as a `BTreeMap` holds them. -/
def Sorted (m : List (String × α)) : Prop := (m.map Prod.fst).Pairwise (· < ·)

theorem sorted_insert {k : String} {v : α} {m : List (String × α)} (h : Sorted m) :
    Sorted (insert k v m) := by
  induction m with
  | nil => exact List.pairwise_singleton _ _
  | cons kv m ih =>
    obtain ⟨hlt, hm⟩ := List.pairwise_cons.mp h
    unfold insert
    split
    · next heq => exact List.pairwise_cons.mpr ⟨heq ▸ hlt, hm⟩
    · next hne =>
      split
      · next hk =>
        refine List.pairwise_cons.mpr ⟨fun a ha => ?_, h⟩
        rcases List.mem_cons.mp ha with rfl | ha
        · exact hk
        · exact hk.trans (hlt a ha)
      · next hge =>
        refine List.pairwise_cons.mpr ⟨fun a ha => ?_, ih hm⟩
        rcases mem_keys_insert.mp ha with rfl | ha
        · exact lt_of_le_of_ne (not_lt.mp hge) (Ne.symm hne)
        · exact hlt a ha

/-! ## A log of writes -/

/-- `x` is the last element of `l` under the key `k`. -/
def LastAt {β κ : Type} (key : β → κ) (l : List β) (k : κ) (x : β) : Prop :=
  ∃ pre post, l = pre ++ x :: post ∧ key x = k ∧ ∀ y ∈ post, key y ≠ k

/-- The map that a log of writes leaves. -/
def ofWrites (ws : List (String × α)) : List (String × α) :=
  ws.foldl (fun m w => insert w.1 w.2 m) []

theorem ofWrites_snoc (ws : List (String × α)) (w : String × α) :
    ofWrites (ws ++ [w]) = insert w.1 w.2 (ofWrites ws) := by
  rw [ofWrites, List.foldl_append]
  rfl

theorem sorted_ofWrites (ws : List (String × α)) : Sorted (ofWrites ws) := by
  induction ws using List.reverseRecOn with
  | nil => exact .nil
  | append_singleton ws w ih => exact ofWrites_snoc ws w ▸ sorted_insert ih

namespace LastAt

variable {β κ : Type} {key : β → κ} {l l' : List β} {k : κ} {x : β}

theorem mem (h : LastAt key l k x) : x ∈ l := by
  obtain ⟨pre, post, rfl, -⟩ := h
  simp

theorem key_eq (h : LastAt key l k x) : key x = k := by
  obtain ⟨_, _, -, hk, -⟩ := h
  exact hk

theorem append_iff : LastAt key (l ++ l') k x ↔
    LastAt key l' k x ∨ LastAt key l k x ∧ ∀ y ∈ l', key y ≠ k := by
  constructor
  · rintro ⟨pre, post, hl, hk, hpost⟩
    rcases List.append_eq_append_iff.mp hl with ⟨as, rfl, rfl⟩ | ⟨bs, rfl, hbs⟩
    · exact .inl ⟨as, post, rfl, hk, hpost⟩
    · rcases bs with _ | ⟨b, bs⟩
      · rw [List.nil_append] at hbs
        exact .inl ⟨[], post, hbs.symm, hk, hpost⟩
      · obtain ⟨rfl, rfl⟩ := List.cons.inj hbs
        exact .inr ⟨⟨pre, bs, rfl, hk, fun y hy => hpost y (List.mem_append_left _ hy)⟩,
          fun y hy => hpost y (List.mem_append_right _ hy)⟩
  · rintro (⟨pre, post, rfl, hk, hpost⟩ | ⟨⟨pre, post, rfl, hk, hpost⟩, hl'⟩)
    · exact ⟨l ++ pre, post, by simp, hk, hpost⟩
    · refine ⟨pre, post ++ l', by simp, hk, fun y hy => ?_⟩
      rcases List.mem_append.mp hy with hy | hy
      · exact hpost y hy
      · exact hl' y hy

theorem singleton_iff {y : β} : LastAt key [y] k x ↔ x = y ∧ key y = k := by
  constructor
  · intro h
    have hx : x = y := List.mem_singleton.mp h.mem
    exact ⟨hx, hx ▸ h.key_eq⟩
  · rintro ⟨rfl, hk⟩
    exact ⟨[], [], rfl, hk, by simp⟩

/-- Under distinct keys every element is the last one. -/
theorem iff_mem_of_nodup (h : (l.map key).Nodup) : LastAt key l (key x) x ↔ x ∈ l := by
  refine ⟨mem, fun hx => ?_⟩
  obtain ⟨pre, post, rfl⟩ := List.append_of_mem hx
  refine ⟨pre, post, rfl, rfl, fun y hy he => ?_⟩
  rw [List.map_append, List.map_cons] at h
  exact (List.nodup_cons.mp h.of_append_right).1 (he ▸ List.mem_map_of_mem hy)

theorem unique {y : β} (hx : LastAt key l k x) (hy : LastAt key l k y) : x = y := by
  induction l using List.reverseRecOn with
  | nil => cases hx.mem
  | append_singleton l z ih =>
    rw [append_iff, singleton_iff] at hx hy
    simp only [List.mem_singleton, forall_eq] at hx hy
    rcases hx with ⟨rfl, hk⟩ | ⟨hx, hz⟩
    · rcases hy with ⟨rfl, -⟩ | ⟨-, hz⟩
      · rfl
      · exact absurd hk hz
    · rcases hy with ⟨rfl, hk⟩ | ⟨hy, -⟩
      · exact absurd hk hz
      · exact ih hx hy

end LastAt

/-- **The entries of the map are the last writes under their keys.** -/
theorem mem_ofWrites {ws : List (String × α)} {kv : String × α} :
    kv ∈ ofWrites ws ↔ LastAt Prod.fst ws kv.1 kv := by
  have hfind : ∀ m : List (String × α), Sorted m →
      (kv ∈ m ↔ m.find? (·.1 = kv.1) = some kv) := fun m hm =>
    ⟨find?_of_mem (hm.imp fun h => h.ne), List.mem_of_find?_eq_some⟩
  induction ws using List.reverseRecOn with
  | nil => simp [ofWrites, LastAt]
  | append_singleton ws w ih =>
    have ih : LastAt Prod.fst ws kv.1 kv ↔ (ofWrites ws).find? (·.1 = kv.1) = some kv :=
      Iff.trans (Iff.symm ih) (hfind _ (sorted_ofWrites ws))
    rw [hfind _ (sorted_ofWrites _), ofWrites_snoc, find?_insert, LastAt.append_iff,
      LastAt.singleton_iff, ih]
    by_cases hw : w.1 = kv.1
    · simp [hw, eq_comm, Prod.ext_iff]
    · have hne : kv ≠ w := fun he => hw (he ▸ rfl)
      simp [hw, hne]

section
variable {ws : List (String × α)} (hd : (ws.map Prod.fst).Nodup)
include hd

/-- Under distinct keys no write is lost. -/
theorem mem_ofWrites_of_nodup {kv : String × α} : kv ∈ ofWrites ws ↔ kv ∈ ws :=
  mem_ofWrites.trans (LastAt.iff_mem_of_nodup hd)

theorem find?_ofWrites (k : String) :
    (ofWrites ws).find? (·.1 = k) = ws.find? (·.1 = k) := by
  cases h : ws.find? (·.1 = k) with
  | some kv =>
    obtain rfl : kv.1 = k := by simpa using List.find?_some h
    exact find?_of_mem ((sorted_ofWrites ws).imp fun h => h.ne)
      ((mem_ofWrites_of_nodup hd).mpr (List.mem_of_find?_eq_some h))
  | none =>
    rw [List.find?_eq_none] at h ⊢
    exact fun kv hkv => h kv ((mem_ofWrites_of_nodup hd).mp hkv)

end

/-! ## Sets -/

theorem mem_insertKey {k a : String} {xs : List String} :
    a ∈ insertKey k xs ↔ a = k ∨ a ∈ xs := by
  induction xs with
  | nil => simp [insertKey]
  | cons x xs ih =>
    unfold insertKey
    split
    · next h => simp [h]
    · split
      · simp
      · rw [List.mem_cons, ih, List.mem_cons]
        exact or_left_comm

theorem sorted_insertKey {k : String} {xs : List String} (h : xs.Pairwise (· < ·)) :
    (insertKey k xs).Pairwise (· < ·) := by
  induction xs with
  | nil => simp [insertKey]
  | cons x xs ih =>
    obtain ⟨hx, hxs⟩ := List.pairwise_cons.mp h
    unfold insertKey
    split
    · exact h
    · next hne =>
      split
      · next hlt =>
        refine List.pairwise_cons.mpr ⟨fun y hy => ?_, h⟩
        rcases List.mem_cons.mp hy with rfl | hy
        · exact hlt
        · exact hlt.trans (hx y hy)
      · next hge =>
        refine List.pairwise_cons.mpr ⟨fun y hy => ?_, ih hxs⟩
        rcases mem_insertKey.mp hy with rfl | hy
        · exact lt_of_le_of_ne (not_lt.mp hge) (Ne.symm hne)
        · exact hx y hy

theorem sorted_ext {xs ys : List String} (hx : xs.Pairwise (· < ·)) (hy : ys.Pairwise (· < ·))
    (h : ∀ a, a ∈ xs ↔ a ∈ ys) : xs = ys := by
  have hp : xs.Perm ys := (List.perm_ext_iff_of_nodup (hx.imp fun h => h.ne)
    (hy.imp fun h => h.ne)).mpr h
  exact hp.eq_of_pairwise' (hx.imp fun h => h.le) (hy.imp fun h => h.le)

/-! ## Grouping by a key -/

theorem keys_upsert {k : String} {init : α} {f : α → α} {m : List (String × α)} :
    (upsert k init f m).map Prod.fst =
      if k ∈ m.map Prod.fst then m.map Prod.fst else m.map Prod.fst ++ [k] := by
  induction m with
  | nil => rfl
  | cons kv m ih =>
    unfold upsert
    by_cases h : kv.1 = k
    · simp [h]
    · rw [if_neg h, List.map_cons, ih, List.map_cons]
      by_cases hk : k ∈ m.map Prod.fst
      · rw [if_pos hk, if_pos (List.mem_cons_of_mem _ hk)]
      · rw [if_neg hk, if_neg]
        · rfl
        · rw [List.mem_cons]
          exact not_or.mpr ⟨Ne.symm h, hk⟩

theorem find?_upsert {k k' : String} {init : α} {f : α → α} {m : List (String × α)} :
    (upsert k init f m).find? (·.1 = k') =
      if k = k' then some (k, f (((m.find? (·.1 = k)).map Prod.snd).getD init))
      else m.find? (·.1 = k') := by
  induction m with
  | nil => by_cases h : k = k' <;> simp [upsert, h]
  | cons kv m ih =>
    unfold upsert
    by_cases h : kv.1 = k
    · subst h
      by_cases hk : kv.1 = k' <;> simp [hk]
    · rw [if_neg h]
      by_cases hk : kv.1 = k'
      · have : k ≠ k' := fun he => h (hk.trans he.symm)
        simp [hk, this]
      · rw [List.find?_cons_of_neg (by simpa using hk), ih,
          List.find?_cons_of_neg (by simpa using h), List.find?_cons_of_neg (by simpa using hk)]

section
variable {β : Type} (key : β → String) (init : α) (step : α → β → α)

/-- The elements folded into one entry for each key. -/
def groupBy (l : List β) : List (String × α) :=
  l.foldl (fun m x => upsert (key x) init (fun e => step e x) m) []

/-- What is folded under a key. -/
def groupOf (l : List β) (k : String) : List β := l.filter (key · = k)

theorem groupBy_snoc (l : List β) (x : β) : groupBy key init step (l ++ [x]) =
    upsert (key x) init (fun e => step e x) (groupBy key init step l) := by
  rw [groupBy, List.foldl_append]
  rfl

theorem mem_keys_groupBy {l : List β} {k : String} :
    k ∈ (groupBy key init step l).map Prod.fst ↔ k ∈ l.map key := by
  induction l using List.reverseRecOn with
  | nil => exact Iff.rfl
  | append_singleton l x ih =>
    rw [groupBy_snoc, keys_upsert, List.map_append, List.mem_append, ← ih, List.map_singleton,
      List.mem_singleton]
    split
    · next h =>
      constructor
      · exact Or.inl
      · rintro (hk | rfl)
        · exact hk
        · exact h
    · rw [List.mem_append, List.mem_singleton]

theorem nodup_keys_groupBy (l : List β) : ((groupBy key init step l).map Prod.fst).Nodup := by
  induction l using List.reverseRecOn with
  | nil => exact List.nodup_nil
  | append_singleton l x ih =>
    rw [groupBy_snoc, keys_upsert]
    split
    · exact ih
    · next h =>
      refine List.nodup_append.mpr ⟨ih, List.nodup_singleton _, fun a ha b hb he => h ?_⟩
      rw [← List.mem_singleton.mp hb, ← he]
      exact ha

/-- **The entry of a key is the fold of what was put under it**, in the order it came. -/
theorem find?_groupBy (l : List β) (k : String) :
    (groupBy key init step l).find? (·.1 = k) =
      if k ∈ l.map key then some (k, (groupOf key l k).foldl step init) else none := by
  induction l using List.reverseRecOn with
  | nil => rfl
  | append_singleton l x ih =>
    rw [groupBy_snoc, find?_upsert]
    by_cases hk : key x = k
    · subst hk
      have hmem : key x ∈ (l ++ [x]).map key := by simp
      have hnew : groupOf key (l ++ [x]) (key x) = groupOf key l (key x) ++ [x] := by
        simp [groupOf]
      rw [if_pos rfl, if_pos hmem, hnew, List.foldl_append, ih]
      split
      · rfl
      · next hno =>
        -- the first element under its key
        have hnil : groupOf key l (key x) = [] := by
          refine List.filter_eq_nil_iff.mpr fun y hy => ?_
          simpa using fun he => hno (List.mem_map.mpr ⟨y, hy, he⟩)
        rw [hnil]
        rfl
    · have hiff : k ∈ (l ++ [x]).map key ↔ k ∈ l.map key := by simp [Ne.symm hk]
      have hold : groupOf key (l ++ [x]) k = groupOf key l k := by simp [groupOf, hk]
      rw [if_neg hk, ih, hold]
      simp only [hiff]

end

end Vigil.Lib.Map

import Mathlib.Data.List.Basic

/-!
# Byte offsets into UTF-8 text

A text is a list of characters and a byte offset into it is a number; the
offset is a character boundary when some prefix of the text has exactly that
many bytes. `slice` is the slicing `&s[..n]` of Rust, `none` where it panics.
`takeBytes max` is the longest prefix of at most `max` bytes. The last part says
that these bytes and boundaries are those of Lean's strings.
-/

namespace Vigil.Lib.Utf8

/-- `str::len`: the length in bytes. -/
def byteLen : List Char → Nat
  | [] => 0
  | c :: cs => c.utf8Size + byteLen cs

/-- `str::is_char_boundary`. -/
def isCharBoundary : List Char → Nat → Bool
  | _, 0 => true
  | [], _ + 1 => false
  | c :: cs, n + 1 => c.utf8Size ≤ n + 1 && isCharBoundary cs (n + 1 - c.utf8Size)

/-- `&s[..n]`. -/
def slice : List Char → Nat → Option (List Char)
  | _, 0 => some []
  | [], _ + 1 => none
  | c :: cs, n + 1 =>
    if c.utf8Size ≤ n + 1 then (slice cs (n + 1 - c.utf8Size)).map (c :: ·) else none

def takeBytes (max : Nat) : List Char → List Char
  | [] => []
  | c :: cs => if c.utf8Size ≤ max then c :: takeBytes (max - c.utf8Size) cs else []

/-- The largest character boundary that is at most `n`, searched downwards. -/
def floorBoundary (s : List Char) : Nat → Nat
  | 0 => 0
  | n + 1 => if isCharBoundary s (n + 1) then n + 1 else floorBoundary s n

@[simp] theorem byteLen_nil : byteLen [] = 0 := rfl

@[simp] theorem byteLen_cons (c : Char) (cs : List Char) :
    byteLen (c :: cs) = c.utf8Size + byteLen cs := rfl

theorem slice_byteLen (s t : List Char) : slice (s ++ t) (byteLen s) = some s := by
  induction s with
  | nil => cases t <;> rfl
  | cons c cs ih =>
    have hc := c.utf8Size_pos
    obtain ⟨k, hk⟩ : ∃ k, byteLen (c :: cs) = k + 1 := ⟨byteLen (c :: cs) - 1, by simp; omega⟩
    have hk' := hk
    rw [byteLen_cons] at hk'
    rw [hk, List.cons_append, slice, if_pos (by omega), ← hk', Nat.add_sub_cancel_left, ih]
    rfl

/-- Slicing panics off the boundaries and nowhere else. -/
theorem isCharBoundary_eq (s : List Char) (n : Nat) : isCharBoundary s n = (slice s n).isSome := by
  induction s generalizing n with
  | nil => cases n <;> rfl
  | cons c cs ih =>
    cases n with
    | zero => rfl
    | succ n =>
      rw [isCharBoundary, slice, ih]
      by_cases hc : c.utf8Size ≤ n + 1
      · rw [if_pos hc, decide_eq_true hc, Bool.true_and, Option.isSome_map]
      · rw [if_neg hc, decide_eq_false hc, Bool.false_and]
        rfl

theorem isCharBoundary_byteLen (s t : List Char) : isCharBoundary (s ++ t) (byteLen s) = true := by
  rw [isCharBoundary_eq, slice_byteLen]
  rfl

theorem takeBytes_isPrefix (max : Nat) (s : List Char) : takeBytes max s <+: s := by
  induction s generalizing max with
  | nil => exact List.prefix_rfl
  | cons c cs ih =>
    unfold takeBytes
    split
    · exact List.cons_prefix_cons.mpr ⟨rfl, ih _⟩
    · exact List.nil_prefix

theorem byteLen_takeBytes (max : Nat) (s : List Char) : byteLen (takeBytes max s) ≤ max := by
  induction s generalizing max with
  | nil => exact Nat.zero_le _
  | cons c cs ih =>
    unfold takeBytes
    split
    · have := ih (max - c.utf8Size); simp; omega
    · exact Nat.zero_le _

/-- No character boundary lies between the bytes of `takeBytes max s` and `max`. -/
theorem isCharBoundary_le_takeBytes {max n : Nat} {s : List Char} (hn : n ≤ max)
    (h : isCharBoundary s n = true) : n ≤ byteLen (takeBytes max s) := by
  induction s generalizing max n with
  | nil => cases n with
    | zero => exact Nat.zero_le _
    | succ n => cases h
  | cons c cs ih =>
    cases n with
    | zero => exact Nat.zero_le _
    | succ n =>
      simp only [isCharBoundary, Bool.and_eq_true, decide_eq_true_eq] at h
      have := ih (Nat.sub_le_sub_right hn c.utf8Size) h.2
      rw [takeBytes, if_pos (by omega), byteLen_cons]
      omega

/-- The downward search stops at the greatest boundary that is at most `max`. -/
theorem floorBoundary_of_greatest {s : List Char} {b max : Nat} (hb : isCharBoundary s b = true)
    (hle : b ≤ max) (hmax : ∀ n, n ≤ max → isCharBoundary s n = true → n ≤ b) :
    floorBoundary s max = b := by
  induction max with
  | zero => simp only [floorBoundary]; omega
  | succ m ih =>
    unfold floorBoundary
    split
    · next h => have := hmax (m + 1) (Nat.le_refl _) h; omega
    · next h =>
      have hbm : b ≠ m + 1 := by rintro rfl; exact h hb
      exact ih (by omega) fun n hn => hmax n (by omega)

theorem floorBoundary_eq (s : List Char) (max : Nat) :
    floorBoundary s max = byteLen (takeBytes max s) := by
  obtain ⟨t, ht⟩ := takeBytes_isPrefix max s
  have hb := isCharBoundary_byteLen (takeBytes max s) t
  rw [ht] at hb
  exact floorBoundary_of_greatest hb (byteLen_takeBytes max s)
    fun n hn h => isCharBoundary_le_takeBytes hn h

theorem slice_floorBoundary (s : List Char) (max : Nat) :
    slice s (floorBoundary s max) = some (takeBytes max s) := by
  obtain ⟨t, ht⟩ := takeBytes_isPrefix max s
  have h := slice_byteLen (takeBytes max s) t
  rw [ht] at h
  rw [floorBoundary_eq, h]

theorem takeBytes_of_le {s : List Char} {max : Nat} (h : byteLen s ≤ max) :
    takeBytes max s = s := by
  induction s generalizing max with
  | nil => rfl
  | cons c cs ih =>
    rw [byteLen_cons] at h
    rw [takeBytes, if_pos (by omega), ih (by omega)]

/-! ## Lean's strings -/

theorem utf8ByteSize_ofList (cs : List Char) : (String.ofList cs).utf8ByteSize = byteLen cs := by
  induction cs with
  | nil => rfl
  | cons c cs ih =>
    have hc : String.ofList (c :: cs) = String.singleton c ++ String.ofList cs := by
      rw [← List.singleton_append, String.ofList_append, String.singleton_eq_ofList]
    rw [hc, String.utf8ByteSize_append, String.utf8ByteSize_singleton, ih, byteLen_cons]

theorem byteLen_toList (s : String) : byteLen s.toList = s.utf8ByteSize := by
  rw [← utf8ByteSize_ofList, String.ofList_toList]

/-- A character boundary is where a prefix ends. -/
theorem isCharBoundary_iff {s : List Char} {n : Nat} :
    isCharBoundary s n = true ↔ ∃ t u, s = t ++ u ∧ n = byteLen t := by
  constructor
  · intro h
    induction s generalizing n with
    | nil =>
      cases n with
      | zero => exact ⟨[], [], rfl, rfl⟩
      | succ n => cases h
    | cons c cs ih =>
      cases n with
      | zero => exact ⟨[], c :: cs, rfl, rfl⟩
      | succ n =>
        simp only [isCharBoundary, Bool.and_eq_true, decide_eq_true_eq] at h
        obtain ⟨t, u, rfl, hn⟩ := ih h.2
        refine ⟨c :: t, u, rfl, ?_⟩
        rw [byteLen_cons]
        omega
  · rintro ⟨t, u, rfl, rfl⟩
    exact isCharBoundary_byteLen t u

/-- The boundaries are the valid positions of the string. -/
theorem isCharBoundary_toList {s : String} {n : Nat} :
    isCharBoundary s.toList n = true ↔ (⟨n⟩ : String.Pos.Raw).IsValid s := by
  rw [isCharBoundary_iff, String.Pos.Raw.isValid_iff_exists_append]
  constructor
  · rintro ⟨t, u, hs, rfl⟩
    refine ⟨String.ofList t, String.ofList u, ?_, ?_⟩
    · rw [← String.ofList_append, ← hs, String.ofList_toList]
    · exact String.Pos.Raw.ext (utf8ByteSize_ofList t).symm
  · rintro ⟨t, u, rfl, hn⟩
    refine ⟨t.toList, u.toList, String.toList_append, ?_⟩
    rw [byteLen_toList]
    exact congrArg String.Pos.Raw.byteIdx hn

end Vigil.Lib.Utf8

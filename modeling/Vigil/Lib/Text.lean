import Vigil.Lib.Rust

/-!
# Text functions of Rust's `str`

Texts are lists of characters here; `String` is used for the fields of records
and for messages. Each function follows the documented behaviour of the `str`
or integer method it is named after.
-/

namespace Vigil.Lib.Text

/-- `char::is_whitespace`: the Unicode `White_Space` property. -/
def isWhitespace (c : Char) : Bool :=
  let n := c.toNat
  (9 ≤ n && n ≤ 13) || n == 32 || n == 0x85 || n == 0xA0 || n == 0x1680 ||
    (0x2000 ≤ n && n ≤ 0x200A) || n == 0x2028 || n == 0x2029 || n == 0x202F || n == 0x205F ||
    n == 0x3000

def chompCr (l : List Char) : List Char :=
  if l.getLast? = some '\r' then l.dropLast else l

/-- `str::lines`: the pieces that end in `\n` or `\r\n`, and the rest after the last one unless it
is empty. -/
def lines (s : List Char) : List (List Char) :=
  let pieces := s.splitOn '\n'
  pieces.dropLast.map chompCr ++ (pieces.getLast?.toList.filter (· ≠ []))

/-- `str::split_whitespace`. -/
def splitWhitespace (s : List Char) : List (List Char) :=
  (s.splitOnP isWhitespace).filter (· ≠ [])

def trim (s : List Char) : List Char :=
  ((s.dropWhile isWhitespace).reverse.dropWhile isWhitespace).reverse

/-- `str::trim_matches(c)`. -/
def trimMatches (c : Char) (s : List Char) : List Char :=
  ((s.dropWhile (· = c)).reverse.dropWhile (· = c)).reverse

/-- `str::strip_prefix`. -/
def stripPrefix (p : String) (s : List Char) : Option (List Char) :=
  if p.toList.isPrefixOf s then some (s.drop p.length) else none

/-- `str::starts_with`. -/
def startsWith (p s : String) : Bool := p.toList.isPrefixOf s.toList

theorem startsWith_iff {p s : String} : startsWith p s = true ↔ p.toList <+: s.toList :=
  List.isPrefixOf_iff_prefix

/-- `str::split_once(c)`: the text before and after the first `c`. -/
def splitOnce (c : Char) (s : List Char) : Option (List Char × List Char) :=
  match s.dropWhile (· ≠ c) with
  | [] => none
  | _ :: rest => some (s.takeWhile (· ≠ c), rest)

/-- `str::contains` of a literal. -/
def contains (needle : String) (s : List Char) : Bool := s.tails.any needle.toList.isPrefixOf

/-- `str::to_ascii_lowercase`. -/
def toAsciiLowercase (s : String) : List Char := s.toList.map Char.toLower

/-- The value of a digit string, `none` when some character is not a digit. -/
def digits : Nat → List Char → Option Nat
  | n, [] => some n
  | n, c :: cs => if c.isDigit then digits (10 * n + (c.toNat - '0'.toNat)) cs else none

def dropPlus (s : List Char) : List Char := if s.head? = some '+' then s.tail else s

/-- An unsigned number below `2^bits`: an optional `+` and at least one digit. -/
def parseUnsigned (bits : Nat) (s : List Char) : Option Nat :=
  if dropPlus s = [] then none else (digits 0 (dropPlus s)).filter (· < 2 ^ bits)

/-- `str::parse::<u64>`, the error dropped. -/
def parseU64 (s : List Char) : Option Nat := parseUnsigned 64 s

/-- `str::parse::<i64>`, the error dropped. -/
def parseI64 (s : List Char) : Option Int :=
  if s.head? = some '-' then
    if s.tail = [] then none
    else (digits 0 s.tail).bind fun n => if n ≤ 2 ^ 63 then some (-(n : Int)) else none
  else (parseUnsigned 63 s).map fun n => (n : Int)

/-- The loop of `split`: how many characters of a separator are still to skip, and the piece so
far, in reverse. -/
def splitLoop (sep : List Char) : Nat → List Char → List Char → List (List Char)
  | _, piece, [] => [piece.reverse]
  | k + 1, piece, _ :: s => splitLoop sep k piece s
  | 0, piece, c :: s =>
    if sep.isPrefixOf (c :: s) then piece.reverse :: splitLoop sep (sep.length - 1) [] s
    else splitLoop sep 0 (c :: piece) s

/-- `str::split` at a separator that is not empty. -/
def split (sep : String) (s : List Char) : List (List Char) := splitLoop sep.toList 0 [] s

/-- `slice::join`. -/
def join (sep : String) (parts : List String) : String := sep.intercalate parts

/-! ## Splitting at a character -/

theorem splitOnce_eq_some_iff {c : Char} {s a b : List Char} :
    splitOnce c s = some (a, b) ↔ s = a ++ c :: b ∧ c ∉ a := by
  induction s generalizing a b with
  | nil => simp [splitOnce]
  | cons x s ih =>
    by_cases hx : x = c
    · cases a with
      | nil => simp [splitOnce, hx, eq_comm]
      | cons y a => simp +contextual [splitOnce, hx, eq_comm]
    · have hcons : splitOnce c (x :: s) = (splitOnce c s).map fun p => (x :: p.1, p.2) := by
        simp only [splitOnce, List.dropWhile_cons, List.takeWhile_cons, hx, decide_not,
          decide_false, Bool.not_false, if_true, ne_eq]
        split <;> rfl
      rw [hcons, Option.map_eq_some_iff]
      constructor
      · rintro ⟨⟨a', b'⟩, h, he⟩
        obtain ⟨rfl, hc⟩ := ih.mp h
        cases he
        exact ⟨rfl, by simp [hc, Ne.symm hx]⟩
      · rintro ⟨h, hc⟩
        cases a with
        | nil => exact absurd (List.cons.inj h).1 hx
        | cons y a =>
          obtain ⟨rfl, rfl⟩ := List.cons.inj h
          exact ⟨(a, b), ih.mpr ⟨rfl, fun hm => hc (List.mem_cons_of_mem _ hm)⟩, rfl⟩

theorem splitOnce_eq_none_iff {c : Char} {s : List Char} : splitOnce c s = none ↔ c ∉ s := by
  constructor
  · intro h hc
    obtain ⟨a, b, rfl, ha⟩ := List.eq_append_cons_of_mem hc
    rw [splitOnce_eq_some_iff.mpr ⟨rfl, ha⟩] at h
    cases h
  · intro hc
    rw [Option.eq_none_iff_forall_not_mem]
    rintro ⟨a, b⟩ h
    obtain ⟨rfl, -⟩ := splitOnce_eq_some_iff.mp h
    exact hc (by simp)

/-! ## Prefixes -/

theorem stripPrefix_eq_some_iff {p : String} {s v : List Char} :
    stripPrefix p s = some v ↔ s = p.toList ++ v := by
  unfold stripPrefix
  constructor
  · intro h
    split at h
    · next hp =>
      obtain ⟨t, rfl⟩ := List.isPrefixOf_iff_prefix.mp hp
      rw [← String.length_toList, List.drop_left] at h
      rw [Option.some.inj h]
    · cases h
  · rintro rfl
    have hp : p.toList.isPrefixOf (p.toList ++ v) = true :=
      List.isPrefixOf_iff_prefix.mpr (List.prefix_append _ v)
    rw [if_pos hp, ← String.length_toList, List.drop_left]

theorem stripPrefix_eq_none_iff {p : String} {s : List Char} :
    stripPrefix p s = none ↔ ¬ p.toList <+: s := by
  unfold stripPrefix
  rw [← List.isPrefixOf_iff_prefix]
  split <;> simp_all

/-! ## Splitting what was joined -/

theorem splitLoop_skip {sep piece l s : List Char} :
    splitLoop sep l.length piece (l ++ s) = splitLoop sep 0 piece s := by
  induction l with
  | nil => rfl
  | cons c l ih => rw [List.length_cons, List.cons_append, splitLoop, ih]

section
variable {c : Char} {sep p : List Char} (hp : c ∉ p)
include hp

theorem splitLoop_last (piece : List Char) :
    splitLoop (c :: sep) 0 piece p = [piece.reverse ++ p] := by
  induction p generalizing piece with
  | nil => simp [splitLoop]
  | cons d p ih =>
    obtain ⟨hd, hp⟩ := List.ne_and_not_mem_of_not_mem_cons hp
    rw [splitLoop, if_neg (by simp [hd]), ih hp, List.reverse_cons, List.append_assoc,
      List.singleton_append]

theorem splitLoop_append (piece s : List Char) :
    splitLoop (c :: sep) 0 piece (p ++ (c :: sep ++ s)) =
      (piece.reverse ++ p) :: splitLoop (c :: sep) 0 [] s := by
  induction p generalizing piece with
  | nil =>
    have hpre : (c :: sep).isPrefixOf (c :: (sep ++ s)) = true :=
      List.isPrefixOf_iff_prefix.mpr (List.prefix_append (c :: sep) s)
    rw [List.nil_append, List.cons_append, splitLoop, if_pos hpre, List.append_nil,
      List.length_cons, Nat.add_sub_cancel, splitLoop_skip]
  | cons d p ih =>
    obtain ⟨hd, hp⟩ := List.ne_and_not_mem_of_not_mem_cons hp
    rw [List.cons_append, splitLoop, if_neg (by simp [hd]), ih hp, List.reverse_cons,
      List.append_assoc, List.singleton_append]

end

/-- Pieces without the first character of the separator come back. -/
theorem split_intercalate {sep : String} {c : Char} {cs : List Char} {parts : List (List Char)}
    (hsep : sep.toList = c :: cs) (hne : parts ≠ []) (hparts : ∀ p ∈ parts, c ∉ p) :
    split sep (sep.toList.intercalate parts) = parts := by
  rw [split, hsep]
  induction parts with
  | nil => exact absurd rfl hne
  | cons p parts ih =>
    have hp := hparts p List.mem_cons_self
    cases parts with
    | nil => rw [List.intercalate_singleton, splitLoop_last hp, List.reverse_nil, List.nil_append]
    | cons q parts =>
      rw [List.intercalate_cons_cons, List.append_assoc, splitLoop_append hp,
        ih (List.cons_ne_nil _ _) fun p h => hparts p (List.mem_cons_of_mem _ h),
        List.reverse_nil, List.nil_append]

/-! ## Reading a number back -/

theorem digits_eq {n : Nat} {cs : List Char} (h : ∀ c ∈ cs, c.isDigit) :
    digits n cs = some (Nat.ofDigitChars 10 cs n) := by
  induction cs generalizing n with
  | nil => simp [digits]
  | cons c cs ih =>
    rw [digits, if_pos (h c List.mem_cons_self), Nat.ofDigitChars_cons,
      ih fun d hd => h d (List.mem_cons_of_mem _ hd)]

theorem isDigit_of_mem_toString {n : Nat} {c : Char} (h : c ∈ (toString n).toList) : c.isDigit := by
  rw [Nat.toString_eq_repr, Nat.toList_repr] at h
  exact Nat.isDigit_of_mem_toDigits (by decide) (by decide) h

theorem digits_toString (n : Nat) : digits 0 (toString n).toList = some n := by
  rw [digits_eq fun c => isDigit_of_mem_toString, Nat.toString_eq_repr, Nat.toList_repr,
    Nat.ofDigitChars_ten_toDigits]

end Vigil.Lib.Text

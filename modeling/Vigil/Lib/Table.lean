import Mathlib.Data.List.DropRight
import Mathlib.Data.Bool.AllAny
import Mathlib.Data.List.Induction
import Vigil.Lib.Text

/-!
# Text tables

A line of a table is words between gaps of whitespace. `Layout` holds the gaps,
`Layout.render` writes words into them, and `splitWhitespace` reads the words
back (`splitWhitespace_render`). `ofLines` ends each line with a line feed, and
`lines` reads the lines back but for a carriage return before it.
-/

namespace Vigil.Lib.Text

/-! ## Words and gaps -/

/-- What `split_whitespace` returns: text without whitespace that is not empty. -/
structure Word where
  chars : List Char
  ne_nil : chars ≠ []
  solid : ∀ c ∈ chars, isWhitespace c = false

/-- Whitespace within a line. -/
def IsGap (g : List Char) : Prop := ∀ c ∈ g, isWhitespace c = true ∧ c ≠ '\n'

theorem isGap_nil : IsGap [] := fun _ h => absurd h List.not_mem_nil

theorem isGap_spaces (n : Nat) : IsGap (List.replicate n ' ') := by
  intro c hc
  rw [List.eq_of_mem_replicate hc]
  decide

@[simp] theorem splitWhitespace_nil : splitWhitespace [] = [] := rfl

/-- Whitespace only separates. -/
theorem splitWhitespace_append_cons {c : Char} (hc : isWhitespace c = true) (a b : List Char) :
    splitWhitespace (a ++ c :: b) = splitWhitespace a ++ splitWhitespace b := by
  rw [splitWhitespace, List.splitOnP_append_cons a b hc, List.filter_append]
  rfl

theorem splitWhitespace_cons {c : Char} (hc : isWhitespace c = true) (s : List Char) :
    splitWhitespace (c :: s) = splitWhitespace s := splitWhitespace_append_cons hc [] s

theorem Word.splitWhitespace (w : Word) : splitWhitespace w.chars = [w.chars] := by
  rw [Text.splitWhitespace, List.splitOnP_eq_singleton w.solid]
  simp [w.ne_nil]

/-- A gap before the text is skipped. -/
theorem splitWhitespace_gap {g : List Char} (hg : IsGap g) (s : List Char) :
    splitWhitespace (g ++ s) = splitWhitespace s := by
  induction g with
  | nil => rfl
  | cons c g ih =>
    rw [List.cons_append, splitWhitespace_cons (hg c List.mem_cons_self).1]
    exact ih fun d hd => hg d (List.mem_cons_of_mem c hd)

/-- A word ends where a gap follows, or the text. -/
theorem splitWhitespace_word (w : Word) {s : List Char}
    (hs : ∀ c ∈ s.head?, isWhitespace c = true) :
    splitWhitespace (w.chars ++ s) = w.chars :: splitWhitespace s := by
  cases s with
  | nil => rw [List.append_nil, w.splitWhitespace, splitWhitespace_nil]
  | cons c s =>
    have hc : isWhitespace c = true := hs c rfl
    rw [splitWhitespace_append_cons hc, splitWhitespace_cons hc, w.splitWhitespace,
      List.singleton_append]

/-- Whitespace at either end makes no difference. -/
theorem splitWhitespace_trim (s : List Char) : splitWhitespace (trim s) = splitWhitespace s := by
  have hfront : ∀ t : List Char,
      splitWhitespace (t.dropWhile isWhitespace) = splitWhitespace t := by
    intro t
    induction t with
    | nil => rfl
    | cons c t ih =>
      rw [List.dropWhile_cons]
      split
      · next hc => rw [ih, splitWhitespace_cons hc]
      · rfl
  have hback : ∀ t : List Char,
      splitWhitespace (t.reverse.dropWhile isWhitespace).reverse = splitWhitespace t := by
    intro t
    induction t using List.reverseRecOn with
    | nil => rfl
    | append_singleton t c ih =>
      rw [List.reverse_concat, List.dropWhile_cons]
      split
      · next hc => rw [ih, splitWhitespace_append_cons hc, splitWhitespace_nil, List.append_nil]
      · rw [← List.reverse_concat, List.reverse_reverse]
  rw [trim, hback, hfront]

/-! ## A line -/

/-- The whitespace of a line: before each word, by its index, and after the last one. -/
structure Layout where
  gap : Nat → List Char
  trail : List Char
  isGap : ∀ i, IsGap (gap i)
  separates : ∀ i, gap (i + 1) ≠ []
  isTrail : IsGap trail

namespace Layout

def render (l : Layout) : Nat → List Word → List Char
  | _, [] => l.trail
  | i, w :: ws => l.gap i ++ (w.chars ++ l.render (i + 1) ws)

variable (l : Layout)

theorem head?_render (i : Nat) (ws : List Word) :
    ∀ c ∈ (l.render (i + 1) ws).head?, isWhitespace c = true := by
  intro c hc
  cases ws with
  | nil => exact (l.isTrail c (List.mem_of_mem_head? hc)).1
  | cons w ws =>
    rw [render, List.head?_append_of_ne_nil _ (l.separates i)] at hc
    exact (l.isGap (i + 1) c (List.mem_of_mem_head? hc)).1

/-- **The words of a line come back.** -/
theorem splitWhitespace_render (i : Nat) (ws : List Word) :
    splitWhitespace (l.render i ws) = ws.map Word.chars := by
  induction ws generalizing i with
  | nil =>
    have := splitWhitespace_gap l.isTrail []
    rwa [List.append_nil] at this
  | cons w ws ih =>
    rw [render, splitWhitespace_gap (l.isGap i), splitWhitespace_word w (l.head?_render i ws), ih,
      List.map_cons]

theorem newline_notMem_render (i : Nat) (ws : List Word) : '\n' ∉ l.render i ws := by
  induction ws generalizing i with
  | nil => exact fun h => (l.isTrail _ h).2 rfl
  | cons w ws ih =>
    rw [render, List.mem_append, List.mem_append]
    rintro (h | h | h)
    · exact (l.isGap i _ h).2 rfl
    · exact absurd (w.solid _ h) (by decide)
    · exact ih (i + 1) h

end Layout

/-- `n + 1` spaces before each word but the first. -/
def Layout.spaces (n : Nat) : Layout where
  gap
    | 0 => []
    | _ + 1 => List.replicate (n + 1) ' '
  trail := []
  isGap
    | 0 => isGap_nil
    | _ + 1 => isGap_spaces (n + 1)
  separates _ := List.cons_ne_nil _ _
  isTrail := isGap_nil

/-! ## Lines -/

/-- Each line, ended by a line feed. -/
def ofLines (ls : List (List Char)) : List Char := ls.flatMap (· ++ ['\n'])

theorem splitOn_ofLines {ls : List (List Char)} (h : ∀ l ∈ ls, '\n' ∉ l) :
    (ofLines ls).splitOn '\n' = ls ++ [[]] := by
  induction ls with
  | nil => rfl
  | cons l ls ih =>
    have hl := h l List.mem_cons_self
    rw [ofLines, List.flatMap_cons, List.append_assoc, List.singleton_append,
      List.splitOn_append_cons_self_of_not_mem hl]
    rw [← ofLines, ih fun m hm => h m (List.mem_cons_of_mem l hm), List.cons_append]

theorem lines_ofLines {ls : List (List Char)} (h : ∀ l ∈ ls, '\n' ∉ l) :
    lines (ofLines ls) = ls.map chompCr := by
  rw [lines, splitOn_ofLines h]
  simp

/-- The carriage return that is dropped is the last character. -/
theorem chompCr_append_cons {c : Char} (hc : c ≠ '\r') (a b : List Char) :
    chompCr (a ++ c :: b) = a ++ c :: chompCr b := by
  unfold chompCr
  rw [List.getLast?_append_of_ne_nil _ (List.cons_ne_nil c b)]
  cases b with
  | nil => simp [hc]
  | cons d b =>
    rw [List.getLast?_cons_cons, List.dropLast_append_of_ne_nil (List.cons_ne_nil c _),
      List.dropLast_cons_of_ne_nil (List.cons_ne_nil d b)]
    split <;> rfl

theorem chompCr_isPrefix (l : List Char) : chompCr l <+: l := by
  unfold chompCr
  split
  · exact List.dropLast_prefix l
  · exact List.prefix_rfl

@[simp] theorem splitWhitespace_chompCr (l : List Char) :
    splitWhitespace (chompCr l) = splitWhitespace l := by
  unfold chompCr
  split
  · next h =>
    obtain ⟨a, rfl⟩ := List.getLast?_eq_some_iff.mp h
    rw [List.dropLast_concat, splitWhitespace_append_cons (by decide), splitWhitespace_nil,
      List.append_nil]
  · rfl

/-! ## Numbers -/

theorem isWhitespace_of_isDigit {c : Char} (h : c.isDigit) : isWhitespace c = false := by
  have hc : 48 ≤ c.toNat ∧ c.toNat ≤ 57 := by
    rw [Char.isDigit, Bool.and_eq_true, decide_eq_true_eq, decide_eq_true_eq] at h
    exact h
  simp only [isWhitespace, Bool.or_eq_false_iff, Bool.and_eq_false_iff, decide_eq_false_iff_not,
    beq_eq_false_iff_ne]
  omega

def Word.ofNat (n : Nat) : Word where
  chars := (toString n).toList
  ne_nil := by
    rw [Nat.toString_eq_repr, Nat.toList_repr]
    exact Nat.toDigits_ne_nil
  solid _ h := isWhitespace_of_isDigit (isDigit_of_mem_toString h)

theorem dropPlus_ofNat (n : Nat) : dropPlus (Word.ofNat n).chars = (Word.ofNat n).chars := by
  refine if_neg fun h => ?_
  have := isDigit_of_mem_toString (List.mem_of_head? h)
  exact absurd this (by decide)

theorem parseU64_ofNat {n : Nat} (h : n ≤ u64Max) : parseU64 (Word.ofNat n).chars = some n := by
  have hlt : n < 2 ^ 64 := Nat.lt_of_le_pred (by decide) h
  have hdigits : digits 0 (Word.ofNat n).chars = some n := digits_toString n
  rw [parseU64, parseUnsigned, dropPlus_ofNat, if_neg (Word.ofNat n).ne_nil, hdigits,
    Option.filter_some, if_pos (decide_eq_true hlt)]

theorem parseU64_column {ns : List Nat} (h : ∀ n ∈ ns, n ≤ u64Max) {i n : Nat}
    (hi : ns[i]? = some n) :
    (parseU64 (((ns.map Word.ofNat).map Word.chars).getD i [])).getD 0 = n := by
  rw [List.getD_eq_getElem?_getD, List.getElem?_map, List.getElem?_map, hi, Option.map_some,
    Option.map_some, Option.getD_some, parseU64_ofNat (h n (List.mem_of_getElem? hi)),
    Option.getD_some]

/-! ## Fields -/

theorem notMem_of_mem_splitOn {c : Char} {s f : List Char} (hf : f ∈ s.splitOn c) : c ∉ f := by
  induction s generalizing f with
  | nil =>
    rw [List.splitOn_nil, List.mem_singleton] at hf
    rw [hf]
    exact List.not_mem_nil
  | cons d s ih =>
    rw [List.splitOn_cons_eq_if_modifyHead] at hf
    split at hf
    · rcases List.mem_cons.mp hf with rfl | hf
      · exact List.not_mem_nil
      · exact ih hf
    · next hne =>
      cases hs : s.splitOn c with
      | nil => exact absurd hs (List.splitOn_ne_nil c s)
      | cons g gs =>
        rw [hs] at hf ih
        rcases List.mem_cons.mp hf with rfl | hf
        · rw [List.mem_cons]
          rintro (rfl | hm)
          · exact hne (beq_self_eq_true _)
          · exact ih List.mem_cons_self hm
        · exact ih (List.mem_cons_of_mem _ hf)

/-! ## Padding -/

theorem trim_eq (s : List Char) : trim s = (s.dropWhile isWhitespace).rdropWhile isWhitespace := rfl

theorem trim_sublist (s : List Char) : (trim s).Sublist s := by
  rw [trim_eq]
  exact (List.rdropWhile_prefix _ _).sublist.trans (List.dropWhile_sublist _)

@[simp] theorem trim_trim (s : List Char) : trim (trim s) = trim s := by
  have hfront : (trim s).dropWhile isWhitespace = trim s := by
    have hp : trim s <+: s.dropWhile isWhitespace := List.rdropWhile_prefix _ _
    cases ht : trim s with
    | nil => rfl
    | cons c t =>
      obtain ⟨u, hu⟩ := ht ▸ hp
      have hne : s.dropWhile isWhitespace ≠ [] := by
        rw [← hu]
        exact List.cons_ne_nil _ _
      have hc := List.head_dropWhile_not isWhitespace hne
      simp only [← hu, List.cons_append, List.head_cons] at hc
      exact List.dropWhile_cons_of_neg (by simp [hc])
  rw [trim_eq (trim s), hfront, trim_eq, List.rdropWhile_idempotent]

theorem trim_gap {g s : List Char} (hg : IsGap g) (hs : ∀ c ∈ s, isWhitespace c = false) :
    trim (g ++ s) = s := by
  have hsolid : ∀ t : List Char, (∀ c ∈ t, isWhitespace c = false) →
      t.dropWhile isWhitespace = t := by
    intro t ht
    cases t with
    | nil => rfl
    | cons c t => exact List.dropWhile_cons_of_neg (by simp [ht c List.mem_cons_self])
  rw [trim, List.dropWhile_append_of_pos fun c hc => (hg c hc).1, hsolid s hs,
    hsolid _ fun c hc => hs c (List.mem_reverse.mp hc), List.reverse_reverse]

end Vigil.Lib.Text

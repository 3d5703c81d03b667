import Vigil.Metrics.System

/-!
# Reading an uptime back

`formatUptime` writes the days, hours, minutes and seconds of an uptime, without
those that are zero. `readParts` reads such a text: it splits it at the commas
and each part at its blank, into a number and the word of a unit.
-/

namespace Vigil.Metrics

open Vigil.Lib

inductive TimeUnit where
  | day
  | hr
  | min
  | sec
  deriving DecidableEq

namespace TimeUnit

def all : List TimeUnit := [day, hr, min, sec]

def word : TimeUnit → String
  | day => "day"
  | hr => "hr"
  | min => "min"
  | sec => "sec"

def seconds : TimeUnit → Nat
  | day => 86400
  | hr => 3600
  | min => 60
  | sec => 1

/-- How many make one of the next longer unit. -/
def limit : TimeUnit → Option Nat
  | day => none
  | hr => some 24
  | min => some 60
  | sec => some 60

def wordOf (u : TimeUnit) (plural : Bool) : String := u.word ++ (if plural then "s" else "")

/-- The unit a word names, and whether the word is its plural. -/
def read (text : List Char) : Option (TimeUnit × Bool) :=
  all.findSome? fun u =>
    if text = (u.wordOf false).toList then some (u, false)
    else if text = (u.wordOf true).toList then some (u, true)
    else none

theorem read_wordOf (u : TimeUnit) (plural : Bool) :
    read (u.wordOf plural).toList = some (u, plural) := by
  cases u <;> cases plural <;> decide

theorem noComma_wordOf (u : TimeUnit) (plural : Bool) : ',' ∉ (u.wordOf plural).toList := by
  cases u <;> cases plural <;> decide

end TimeUnit

structure UptimePart where
  count : Nat
  unit : TimeUnit
  plural : Bool
  deriving DecidableEq

namespace UptimePart

def seconds (p : UptimePart) : Nat := p.count * p.unit.seconds

def text (p : UptimePart) : String := toString p.count ++ " " ++ p.unit.wordOf p.plural

def read (text : List Char) : Option UptimePart := do
  let (number, unit) ← Text.splitOnce ' ' text
  let count ← Text.digits 0 number
  let (unit, plural) ← TimeUnit.read unit
  some ⟨count, unit, plural⟩

/-- The part has a place in an uptime, and its unit the right number. -/
structure WellFormed (p : UptimePart) : Prop where
  pos : 0 < p.count
  bounded : ∀ n, p.unit.limit = some n → p.count < n
  plural : p.plural = true ↔ p.count ≠ 1

theorem text_toList (p : UptimePart) :
    p.text.toList = (toString p.count).toList ++ ' ' :: (p.unit.wordOf p.plural).toList := by
  simp [text]

theorem read_text (p : UptimePart) : read p.text.toList = some p := by
  have hblank : ' ' ∉ (toString p.count).toList := fun h =>
    absurd (Text.isDigit_of_mem_toString h) (by decide)
  have hsplit := Text.splitOnce_eq_some_iff.mpr ⟨p.text_toList, hblank⟩
  rw [read, hsplit]
  simp only [Option.bind_eq_bind, Option.bind_some, Text.digits_toString, TimeUnit.read_wordOf]

theorem noComma_text (p : UptimePart) : ',' ∉ p.text.toList := by
  rw [text_toList, List.mem_append, List.mem_cons]
  rintro (h | h | h)
  · exact absurd (Text.isDigit_of_mem_toString h) (by decide)
  · exact absurd h (by decide)
  · exact TimeUnit.noComma_wordOf _ _ h

end UptimePart

/-- The parts of a text that is joined from them. -/
def readParts (s : String) : Option (List UptimePart) :=
  if s = "" then some [] else (Text.split ", " s.toList).mapM UptimePart.read

def readUptime (s : String) : Option Nat :=
  (readParts s).map fun parts => (parts.map UptimePart.seconds).sum

theorem mapM_read_text (parts : List UptimePart) :
    (parts.map fun p => p.text.toList).mapM UptimePart.read = some parts := by
  induction parts with
  | nil => rfl
  | cons p parts ih =>
    rw [List.map_cons, List.mapM_cons, UptimePart.read_text, ih]
    rfl

theorem readParts_join (parts : List UptimePart) :
    readParts (Text.join ", " (parts.map UptimePart.text)) = some parts := by
  cases parts with
  | nil => rfl
  | cons p parts =>
    have hjoin : (Text.join ", " ((p :: parts).map UptimePart.text)).toList =
        ", ".toList.intercalate ((p :: parts).map fun p => p.text.toList) := by
      rw [Text.join, String.toList_intercalate, List.map_map]
      rfl
    have hne : Text.join ", " ((p :: parts).map UptimePart.text) ≠ "" := by
      intro h
      rw [h, List.map_cons, UptimePart.text_toList] at hjoin
      cases parts <;> simp at hjoin
    have hcomma : ∀ text ∈ (p :: parts).map fun p => p.text.toList, ',' ∉ text := by
      intro text h
      obtain ⟨q, -, rfl⟩ := List.mem_map.mp h
      exact q.noComma_text
    have hsep : ", ".toList = [',', ' '] := by decide
    have hparts : (p :: parts).map (fun p => p.text.toList) ≠ [] := List.cons_ne_nil _ _
    rw [readParts, if_neg hne, hjoin, Text.split_intercalate hsep hparts hcomma, mapM_read_text]

/-! ## What is written -/

/-- At most one part, none for a count of zero. -/
def partOf (n : Nat) (u : TimeUnit) : List UptimePart := if 0 < n then [⟨n, u, n ≠ 1⟩] else []

def partsOf (total : Nat) : List UptimePart :=
  partOf (total / 86400) .day ++ partOf (total % 86400 / 3600) .hr ++
    partOf (total % 86400 % 3600 / 60) .min ++ partOf (total % 86400 % 3600 % 60) .sec

theorem uptimePart_eq (n : Nat) (u : TimeUnit) :
    uptimePart n u.word = (partOf n u).map UptimePart.text := by
  unfold uptimePart partOf
  split
  · simp [UptimePart.text, TimeUnit.wordOf, String.append_assoc]
  · rfl

theorem formatUptime_eq (total : Nat) :
    formatUptime total = Text.join ", " ((partsOf total).map UptimePart.text) := by
  unfold formatUptime partsOf
  split
  · next h => subst h; rfl
  · simp only [List.map_append, ← uptimePart_eq]
    rfl

theorem sum_partOf (n : Nat) (u : TimeUnit) :
    ((partOf n u).map UptimePart.seconds).sum = n * u.seconds := by
  unfold partOf
  split
  · simp [UptimePart.seconds]
  · next h => simp [Nat.eq_zero_of_not_pos h]

theorem sum_partsOf (total : Nat) : ((partsOf total).map UptimePart.seconds).sum = total := by
  simp only [partsOf, List.map_append, List.sum_append, sum_partOf, TimeUnit.seconds]
  omega

theorem units_partsOf (total : Nat) :
    ((partsOf total).map UptimePart.unit).Sublist TimeUnit.all := by
  have hpart : ∀ n u, ((partOf n u).map UptimePart.unit).Sublist [u] := by
    intro n u
    unfold partOf
    split
    · exact .refl _
    · exact List.nil_sublist _
  simp only [partsOf, List.map_append]
  exact (((hpart _ _).append (hpart _ _)).append (hpart _ _)).append (hpart _ _)

theorem wellFormed_of_mem_partOf {n : Nat} {u : TimeUnit} (hn : ∀ m, u.limit = some m → n < m)
    {p : UptimePart} (h : p ∈ partOf n u) : p.WellFormed := by
  unfold partOf at h
  split at h
  · next hpos =>
    rw [List.mem_singleton.mp h]
    exact ⟨hpos, hn, by simp⟩
  · cases h

theorem wellFormed_of_mem_partsOf {total : Nat} {p : UptimePart} (h : p ∈ partsOf total) :
    p.WellFormed := by
  simp only [partsOf, List.mem_append] at h
  rcases h with ((h | h) | h) | h
  · exact wellFormed_of_mem_partOf (by simp [TimeUnit.limit]) h
  · exact wellFormed_of_mem_partOf (by simp [TimeUnit.limit]; omega) h
  · exact wellFormed_of_mem_partOf (by simp [TimeUnit.limit]; omega) h
  · exact wellFormed_of_mem_partOf (by simp [TimeUnit.limit]; omega) h

theorem readParts_formatUptime (total : Nat) :
    readParts (formatUptime total) = some (partsOf total) := by
  rw [formatUptime_eq, readParts_join]

theorem readUptime_formatUptime (total : Nat) : readUptime (formatUptime total) = some total := by
  rw [readUptime, readParts_formatUptime, Option.map_some, sum_partsOf]

/-- **An uptime is written without loss.** Its text reads back as the same number of seconds, so no
two uptimes share one, and each part of it is where and what it should be. -/
theorem uptime_lossless :
    Function.Injective formatUptime ∧
      ∀ total, readUptime (formatUptime total) = some total ∧
        ∃ parts, readParts (formatUptime total) = some parts ∧
          (parts.map UptimePart.unit).Sublist TimeUnit.all ∧ ∀ p ∈ parts, p.WellFormed := by
  refine ⟨fun a b h => ?_, fun total => ⟨readUptime_formatUptime total, partsOf total,
    readParts_formatUptime total, units_partsOf total, fun p => wellFormed_of_mem_partsOf⟩⟩
  have hread := congrArg readUptime h
  rw [readUptime_formatUptime, readUptime_formatUptime] at hread
  exact Option.some.inj hread

end Vigil.Metrics

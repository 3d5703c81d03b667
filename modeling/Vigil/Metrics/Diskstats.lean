import Mathlib.Algebra.BigOperators.Group.List.Basic
import Vigil.Lib.Table
import Vigil.Metrics.Disk

/-!
# The layout of `/proc/diskstats`

A `DiskstatsRow` is a row as the kernel prints it: the numbers and the name of
the device, eleven counters, and any that later kernels add. `DiskstatsLine` is
such a row or a line that is too short for one. `read_diskstats_exact` says that
`read_diskstats` returns the sums of four of the columns over the rows whose
device is listed in `/sys/block` and is neither a loop nor a ram device.
-/

namespace Vigil.Metrics

open Vigil.Lib Vigil.Lib.Text

/-- The counters of a device, in the order of the columns. -/
structure DiskCounters where
  readsCompleted : Nat
  readsMerged : Nat
  sectorsRead : Nat
  msReading : Nat
  writesCompleted : Nat
  writesMerged : Nat
  sectorsWritten : Nat
  msWriting : Nat
  inFlight : Nat
  msIo : Nat
  msWeighted : Nat
  /-- discards and flushes -/
  more : List Nat

def DiskCounters.columns (c : DiskCounters) : List Nat :=
  [c.readsCompleted, c.readsMerged, c.sectorsRead, c.msReading, c.writesCompleted, c.writesMerged,
    c.sectorsWritten, c.msWriting, c.inFlight, c.msIo, c.msWeighted] ++ c.more

structure DiskstatsRow where
  major : Nat
  minor : Nat
  name : String
  counters : DiskCounters
  layout : Layout
  ne_nil : name.toList ≠ []
  solid : ∀ c ∈ name.toList, isWhitespace c = false
  fits : ∀ n ∈ counters.columns, n ≤ u64Max

namespace DiskstatsRow

variable (row : DiskstatsRow)

def words : List Word :=
  .ofNat row.major :: .ofNat row.minor :: ⟨row.name.toList, row.ne_nil, row.solid⟩ ::
    row.counters.columns.map .ofNat

def text : List Char := row.layout.render 0 row.words

/-- What the reader takes from the row. -/
def read : DiskRow :=
  ⟨row.counters.readsCompleted, row.counters.sectorsRead, row.counters.writesCompleted,
    row.counters.sectorsWritten⟩

end DiskstatsRow

inductive DiskstatsLine where
  | row (row : DiskstatsRow)
  | other (text : List Char) (newline : '\n' ∉ text) (short : (splitWhitespace text).length < 14)

namespace DiskstatsLine

def text : DiskstatsLine → List Char
  | row r => r.text
  | other t _ _ => t

def row? : DiskstatsLine → Option DiskstatsRow
  | row r => some r
  | other _ _ _ => none

end DiskstatsLine

def diskstatsText (ls : List DiskstatsLine) : String :=
  String.ofList (ofLines (ls.map DiskstatsLine.text))

/-- The devices that are counted: those listed, but for loop and ram devices. -/
def CountedDevice (listed : List String) (name : String) : Prop :=
  name ∈ listed ∧ ¬ "loop".toList <+: name.toList ∧ ¬ "ram".toList <+: name.toList

instance (listed : List String) (name : String) : Decidable (CountedDevice listed name) :=
  inferInstanceAs (Decidable (_ ∧ _))

def countedRows (listed : List String) (ls : List DiskstatsLine) : List DiskstatsRow :=
  (ls.filterMap DiskstatsLine.row?).filter fun row => CountedDevice listed row.name

/-- A column, summed over the rows that are counted. -/
def columnSum (listed : List String) (ls : List DiskstatsLine)
    (column : DiskCounters → Nat) : Nat :=
  ((countedRows listed ls).map fun row => column row.counters).sum

/-- Bytes and operations of the table; a sector is 512 bytes. -/
def tableTotals (listed : List String) (ls : List DiskstatsLine) : DiskTotals where
  readBytes := 512 * columnSum listed ls DiskCounters.sectorsRead
  writeBytes := 512 * columnSum listed ls DiskCounters.sectorsWritten
  readOps := columnSum listed ls DiskCounters.readsCompleted
  writeOps := columnSum listed ls DiskCounters.writesCompleted

/-- The entries of `/sys/block`, none when it cannot be listed. -/
def IoReading.listed (r : IoReading) : List String := r.sysBlock.getD []

/-! ## Reading the rows -/

theorem mem_wholeDisks {r : IoReading} {name : String} :
    name ∈ wholeDisks r ↔ CountedDevice r.listed name := by
  unfold wholeDisks IoReading.listed CountedDevice
  cases r.sysBlock with
  | none => simp
  | some names => simp [Text.startsWith_iff, ← Bool.not_eq_true]

/-- The columns of a row are where the reader looks for them. -/
theorem diskRow_text (allowed : List String) (row : DiskstatsRow) :
    diskRow allowed (chompCr row.text) = if row.name ∈ allowed then some row.read else none := by
  have hcols : splitWhitespace (chompCr row.text) = row.words.map Word.chars := by
    rw [splitWhitespace_chompCr, DiskstatsRow.text, Layout.splitWhitespace_render]
  have hlen : 14 ≤ (row.words.map Word.chars).length := by
    simp [DiskstatsRow.words, DiskCounters.columns]
  have hname : String.ofList ((row.words.map Word.chars).getD 2 []) = row.name :=
    String.ofList_toList
  have hcol : ∀ {i n : Nat}, row.counters.columns[i]? = some n →
      (parseU64 ((row.words.map Word.chars).getD (i + 3) [])).getD 0 = n := by
    intro i n hi
    rw [DiskstatsRow.words, List.map_cons, List.map_cons, List.map_cons, List.getD_cons_succ,
      List.getD_cons_succ, List.getD_cons_succ]
    exact parseU64_column row.fits hi
  unfold diskRow
  dsimp only
  rw [hcols, if_neg (by omega), hname, hcol (i := 0) rfl, hcol (i := 2) rfl, hcol (i := 4) rfl,
    hcol (i := 6) rfl]
  by_cases h : row.name ∈ allowed
  · rw [if_pos (List.contains_iff_mem.mpr h), if_pos h]
    rfl
  · rw [if_neg fun hc => h (List.contains_iff_mem.mp hc), if_neg h]

theorem diskRow_other (allowed : List String) {text : List Char}
    (h : (splitWhitespace text).length < 14) : diskRow allowed (chompCr text) = none := by
  unfold diskRow
  dsimp only
  rw [splitWhitespace_chompCr, if_pos h]

theorem DiskstatsLine.newline_notMem_text (l : DiskstatsLine) : '\n' ∉ l.text := by
  cases l with
  | row r => exact r.layout.newline_notMem_render 0 r.words
  | other t hn _ => exact hn

/-- A line is worth its row, if it has one and its device is counted. -/
theorem diskRow_line (r : IoReading) (l : DiskstatsLine) :
    diskRow (wholeDisks r) (chompCr l.text) =
      (l.row?.filter fun row => CountedDevice r.listed row.name).map DiskstatsRow.read := by
  cases l with
  | row row =>
    rw [DiskstatsLine.text, diskRow_text, DiskstatsLine.row?, Option.filter_some]
    by_cases h : CountedDevice r.listed row.name
    · rw [if_pos (mem_wholeDisks.mpr h), if_pos (decide_eq_true h), Option.map_some]
    · rw [if_neg (mt mem_wholeDisks.mp h), if_neg (by simpa using h), Option.map_none]
  | other t _ hshort => exact diskRow_other _ hshort

/-- The rows the reader sums. -/
theorem diskRows_text (r : IoReading) (ls : List DiskstatsLine) :
    diskRows (wholeDisks r) (diskstatsText ls) =
      (countedRows r.listed ls).map DiskstatsRow.read := by
  have hnl : ∀ l ∈ ls.map DiskstatsLine.text, '\n' ∉ l := by
    intro l hl
    obtain ⟨d, -, rfl⟩ := List.mem_map.mp hl
    exact d.newline_notMem_text
  rw [diskRows, diskstatsText, String.toList_ofList, lines_ofLines hnl, List.map_map,
    List.filterMap_map, countedRows, List.filter_filterMap, List.map_filterMap]
  exact List.filterMap_congr fun l _ => diskRow_line r l

theorem exactTotals_text (r : IoReading) (ls : List DiskstatsLine) :
    exactTotals (diskRows (wholeDisks r) (diskstatsText ls)) = tableTotals r.listed ls := by
  rw [diskRows_text, exactTotals, tableTotals]
  simp only [columnSum, List.map_map, Nat.mul_comm 512]
  rfl

/-! ## The order of rows and entries -/

theorem columnSum_congr {listed listed' : List String} {ls ls' : List DiskstatsLine}
    (hp : ls'.Perm ls) (hl : ∀ n, n ∈ listed' ↔ n ∈ listed) (column : DiskCounters → Nat) :
    columnSum listed' ls' column = columnSum listed ls column := by
  have hcount : (fun row : DiskstatsRow => decide (CountedDevice listed' row.name)) =
      fun row => decide (CountedDevice listed row.name) := by
    funext row
    exact decide_eq_decide.mpr (and_congr_left' (hl row.name))
  have hrows : (countedRows listed' ls').Perm (countedRows listed ls) := by
    rw [countedRows, hcount]
    exact (hp.filterMap _).filter _
  exact (hrows.map _).sum_eq

theorem tableTotals_congr {listed listed' : List String} {ls ls' : List DiskstatsLine}
    (hp : ls'.Perm ls) (hl : ∀ n, n ∈ listed' ↔ n ∈ listed) :
    tableTotals listed' ls' = tableTotals listed ls := by
  simp only [tableTotals, columnSum_congr hp hl]

/-- **The right columns of the right rows are summed**, whatever the order of the rows and of the
directory entries. -/
theorem read_diskstats_exact {r : IoReading} {ls : List DiskstatsLine}
    (hr : r.diskstats = some (diskstatsText ls)) (hf : (tableTotals r.listed ls).Fits) :
    readDiskstats r = some (tableTotals r.listed ls) ∧
    ∀ (r' : IoReading) (ls' : List DiskstatsLine), r'.diskstats = some (diskstatsText ls') →
      ls'.Perm ls → (∀ n, n ∈ r'.listed ↔ n ∈ r.listed) → readDiskstats r' = readDiskstats r := by
  have hread : ∀ (r' : IoReading) (ls' : List DiskstatsLine),
      r'.diskstats = some (diskstatsText ls') → (tableTotals r'.listed ls').Fits →
      readDiskstats r' = some (tableTotals r'.listed ls') := by
    intro r' ls' hr' hf'
    rw [readDiskstats_eq_exact hr' (by rw [exactTotals_text]; exact hf'), exactTotals_text]
  refine ⟨hread r ls hr hf, fun r' ls' hr' hp hl => ?_⟩
  have htotals := tableTotals_congr hp hl
  rw [hread r ls hr hf, hread r' ls' hr' (by rw [htotals]; exact hf), htotals]

/-! ## A disk with a partition -/

def printedDisk : DiskstatsRow where
  major := 8
  minor := 0
  name := "sda"
  counters := ⟨100, 3, 2048, 50, 200, 7, 4096, 90, 1, 120, 140, [0, 0, 0, 0, 5, 2]⟩
  layout := .spaces 0
  ne_nil := by decide
  solid := List.all_iff_forall_prop.mp (by decide)
  fits := List.all_iff_forall_prop.mp (by decide)

def printedPartition : DiskstatsRow where
  major := 8
  minor := 1
  name := "sda1"
  counters := ⟨90, 3, 2000, 45, 190, 7, 4000, 85, 0, 110, 130, []⟩
  layout := .spaces 4
  ne_nil := by decide
  solid := List.all_iff_forall_prop.mp (by decide)
  fits := List.all_iff_forall_prop.mp (by decide)

def printedLoop : DiskstatsRow where
  major := 7
  minor := 0
  name := "loop0"
  counters := ⟨5, 0, 40, 1, 0, 0, 0, 0, 0, 1, 1, []⟩
  layout := .spaces 2
  ne_nil := by decide
  solid := List.all_iff_forall_prop.mp (by decide)
  fits := List.all_iff_forall_prop.mp (by decide)

/-- Only the row of `sda` is counted. -/
def printedLines : List DiskstatsLine :=
  [.row printedLoop, .other "   8       2 sda2 3 4".toList (by decide) (by decide),
    .row printedDisk, .row printedPartition]

def printedReading : IoReading where
  now := 0
  diskstats := some (diskstatsText printedLines)
  sysBlock := some ["loop0", "sda"]

theorem read_diskstats_exact_printedReading :
    readDiskstats printedReading = some ⟨1048576, 2097152, 100, 200⟩ := by
  have htotals : tableTotals printedReading.listed printedLines =
      ⟨1048576, 2097152, 100, 200⟩ := by decide +kernel
  have hf : (tableTotals printedReading.listed printedLines).Fits := by
    rw [htotals]
    exact ⟨by decide, by decide, by decide, by decide⟩
  exact htotals ▸ (read_diskstats_exact rfl hf).1

end Vigil.Metrics

import Vigil.Lib.Table
import Vigil.Metrics.Net

/-!
# The layout of `/proc/net/dev`

`NetDevTable` is what the kernel prints: two header lines, then for each
interface its name, a colon, and eight receive and eight transmit counters.
`net_dev_exact` says that `read_proc_net_drops` recovers the drop counter of
either side, and that `statistics` puts them on the listed interfaces.
-/

namespace Vigil.Metrics

open Vigil.Lib Vigil.Lib.Text

/-- The receive counters, in the order of the columns. -/
structure Receive where
  bytes : Nat
  packets : Nat
  errs : Nat
  drop : Nat
  fifo : Nat
  frame : Nat
  compressed : Nat
  multicast : Nat

def Receive.columns (c : Receive) : List Nat :=
  [c.bytes, c.packets, c.errs, c.drop, c.fifo, c.frame, c.compressed, c.multicast]

/-- The transmit counters, in the order of the columns. -/
structure Transmit where
  bytes : Nat
  packets : Nat
  errs : Nat
  drop : Nat
  fifo : Nat
  colls : Nat
  carrier : Nat
  compressed : Nat

def Transmit.columns (c : Transmit) : List Nat :=
  [c.bytes, c.packets, c.errs, c.drop, c.fifo, c.colls, c.carrier, c.compressed]

/-- A row: the blanks before the name, and those of the counters. -/
structure NetDevRow where
  name : String
  receive : Receive
  transmit : Transmit
  pad : List Char
  layout : Layout
  plain : ∀ c ∈ name.toList, c ≠ ':' ∧ isWhitespace c = false
  isGap : IsGap pad
  counters : ∀ n ∈ receive.columns ++ transmit.columns, n ≤ u64Max

namespace NetDevRow

variable (row : NetDevRow)

def words : List Word := (row.receive.columns ++ row.transmit.columns).map Word.ofNat

def text : List Char := row.pad ++ row.name.toList ++ ':' :: row.layout.render 0 row.words

def drops : String × Nat × Nat := (row.name, row.receive.drop, row.transmit.drop)

end NetDevRow

structure NetDevTable where
  header₁ : List Char
  header₂ : List Char
  rows : List NetDevRow
  headers : '\n' ∉ header₁ ∧ '\n' ∉ header₂
  distinct : (rows.map NetDevRow.name).Nodup

namespace NetDevTable

variable (t : NetDevTable)

def lines : List (List Char) := t.header₁ :: t.header₂ :: t.rows.map NetDevRow.text

def text : String := String.ofList (ofLines t.lines)

/-- The drops of an interface, none when the table has no row for it. -/
def dropsOf (name : String) : Nat × Nat :=
  ((t.rows.find? (·.name = name)).map fun row => row.drops.2).getD (0, 0)

end NetDevTable

/-- The statistics of an interface with the drops `d`. -/
def ifaceStats (data : NetData) (d : Nat × Nat) : NetIfaceStats where
  mbSent := .fin (data.transmitted / (1024 * 1024))
  mbReceived := .fin (data.received / (1024 * 1024))
  pkSent := data.packetsTransmitted
  pkReceived := data.packetsReceived
  errorIn := data.errorsOnReceived
  errorOut := data.errorsOnTransmitted
  dropin := d.1
  dropout := d.2

/-! ## Reading the rows -/

/-- What a line is worth to the reader. -/
def lineDrops (line : List Char) : Option (String × Nat × Nat) :=
  match splitOnce ':' line with
  | none => none
  | some (iface, rest) =>
    let cols := splitWhitespace rest
    let num i := (parseU64 (cols.getD i [])).getD 0
    if 12 ≤ cols.length then some (String.ofList (trim iface), num 3, num 11) else none

theorem readProcNetDrops_eq (r : Reading) : readProcNetDrops r =
    r.netDev.map fun raw => Map.ofWrites (((lines raw.toList).drop 2).filterMap lineDrops) := by
  unfold readProcNetDrops
  congr 1
  funext raw
  rw [Map.ofWrites, List.foldl_filterMap]
  congr 1
  funext out line
  rw [lineDrops]
  cases splitOnce ':' line with
  | none => rfl
  | some p =>
    obtain ⟨iface, rest⟩ := p
    dsimp only
    split <;> rfl

theorem NetDevRow.newline_notMem_text (row : NetDevRow) : '\n' ∉ row.text := by
  rw [NetDevRow.text, List.mem_append, List.mem_append, List.mem_cons]
  rintro ((h | h) | h | h)
  · exact (row.isGap _ h).2 rfl
  · exact absurd (row.plain _ h).2 (by decide)
  · exact absurd h (by decide)
  · exact row.layout.newline_notMem_render 0 row.words h

/-- A row gives its drops: column 3 of the receive side and column 3 of the transmit side. -/
theorem lineDrops_text (row : NetDevRow) : lineDrops (chompCr row.text) = some row.drops := by
  have hcolon : ':' ∉ row.pad ++ row.name.toList := by
    rw [List.mem_append]
    rintro (h | h)
    · exact absurd (row.isGap _ h).1 (by decide)
    · exact (row.plain _ h).1 rfl
  have hsplit : splitOnce ':' (chompCr row.text) =
      some (row.pad ++ row.name.toList, chompCr (row.layout.render 0 row.words)) :=
    splitOnce_eq_some_iff.mpr ⟨chompCr_append_cons (by decide) _ _, hcolon⟩
  have hcols : splitWhitespace (chompCr (row.layout.render 0 row.words)) =
      row.words.map Word.chars := by
    rw [splitWhitespace_chompCr, Layout.splitWhitespace_render]
  have hname : trim (row.pad ++ row.name.toList) = row.name.toList :=
    trim_gap row.isGap fun c hc => (row.plain c hc).2
  have hlen : (row.words.map Word.chars).length = 16 := rfl
  rw [lineDrops, hsplit]
  dsimp only
  rw [hcols, hname, String.ofList_toList, if_pos (by rw [hlen]; decide)]
  have hdin := parseU64_column row.counters (i := 3) rfl
  have hdout := parseU64_column row.counters (i := 11) rfl
  rw [NetDevRow.words, hdin, hdout]
  rfl

namespace NetDevTable

variable (t : NetDevTable)

theorem lines_text : (Text.lines t.text.toList).drop 2 =
    t.rows.map fun row => chompCr row.text := by
  have hnl : ∀ l ∈ t.lines, '\n' ∉ l := by
    intro l hl
    rcases List.mem_cons.mp hl with rfl | hl
    · exact t.headers.1
    rcases List.mem_cons.mp hl with rfl | hl
    · exact t.headers.2
    obtain ⟨row, -, rfl⟩ := List.mem_map.mp hl
    exact row.newline_notMem_text
  rw [text, String.toList_ofList, lines_ofLines hnl, lines, List.map_cons, List.map_cons,
    List.map_map]
  rfl

theorem nodup_drops : ((t.rows.map NetDevRow.drops).map Prod.fst).Nodup := by
  rw [List.map_map]
  exact t.distinct

variable {t} {r : Reading} (hr : r.netDev = some t.text)
include hr

theorem readProcNetDrops_text :
    readProcNetDrops r = some (Map.ofWrites (t.rows.map NetDevRow.drops)) := by
  have hrows : (t.rows.map fun row => chompCr row.text).filterMap lineDrops =
      t.rows.map NetDevRow.drops := by
    have hline : (lineDrops ∘ fun row : NetDevRow => chompCr row.text) =
        fun row => some row.drops := funext lineDrops_text
    rw [List.filterMap_map, hline, List.filterMap_eq_map']
  rw [readProcNetDrops_eq, hr, Option.map_some, lines_text, hrows]

end NetDevTable

/-! ## The join by name -/

def withDrops (s : NetIfaceStats) (drop : Option (String × Nat × Nat)) : NetIfaceStats :=
  match drop with
  | some d => { s with dropin := d.2.1, dropout := d.2.2 }
  | none => s

theorem setDrops_eq (out : List (String × NetIfaceStats)) (d : String × Nat × Nat) :
    setDrops out d =
      out.map fun kv => (kv.1, if kv.1 = d.1 then withDrops kv.2 (some d) else kv.2) := by
  refine List.map_congr_left ?_
  rintro ⟨name, s⟩ -
  dsimp only
  split <;> rfl

/-- Under distinct names an entry gets the drops of the row with its name. -/
theorem foldl_setDrops {drops : List (String × Nat × Nat)} (hd : (drops.map Prod.fst).Nodup)
    (out : List (String × NetIfaceStats)) :
    drops.foldl setDrops out =
      out.map fun kv => (kv.1, withDrops kv.2 (drops.find? (·.1 = kv.1))) := by
  induction drops generalizing out with
  | nil => exact (List.map_id out).symm
  | cons d ds ih =>
    obtain ⟨hnew, hds⟩ := List.nodup_cons.mp hd
    rw [List.foldl_cons, ih hds, setDrops_eq, List.map_map]
    refine List.map_congr_left fun kv _ => ?_
    rw [Function.comp_apply]
    by_cases hk : kv.1 = d.1
    · -- no later row has this name
      have hnone : ds.find? (·.1 = kv.1) = none := by
        rw [List.find?_eq_none]
        intro x hx he
        exact hnew (hk ▸ of_decide_eq_true he ▸ List.mem_map_of_mem hx)
      have hsome : (d :: ds).find? (·.1 = kv.1) = some d :=
        List.find?_cons_of_pos (decide_eq_true hk.symm)
      rw [hsome, if_pos hk, hnone]
      rfl
    · have hskip : (d :: ds).find? (·.1 = kv.1) = ds.find? (·.1 = kv.1) :=
        List.find?_cons_of_neg (by simpa using Ne.symm hk)
      rw [hskip, if_neg hk]

namespace NetDevTable

variable {t : NetDevTable} {r : Reading} (hr : r.netDev = some t.text)
include hr

/-- The map of `sysinfo`, with the drops of the table. -/
theorem statistics_text (networks : List (String × NetData)) :
    statistics r networks =
      (Map.ofWrites (networks.map fun n => (n.1, ifaceStats n.2 (0, 0)))).map fun kv =>
        (kv.1, withDrops kv.2 ((t.rows.map NetDevRow.drops).find? (·.1 = kv.1))) := by
  have hnodup := (Map.sorted_ofWrites (t.rows.map NetDevRow.drops)).imp fun h => h.ne
  have hout : Map.ofWrites (networks.map fun n => (n.1, ifaceStats n.2 (0, 0))) =
      networks.foldl (fun out n => Map.insert n.1 (ifaceStats n.2 (0, 0)) out) [] := by
    rw [Map.ofWrites, List.foldl_map]
  unfold statistics
  rw [readProcNetDrops_text hr, hout]
  dsimp only
  rw [foldl_setDrops hnodup]
  simp only [Map.find?_ofWrites t.nodup_drops]
  rfl

theorem sorted_statistics (networks : List (String × NetData)) :
    Map.Sorted (statistics r networks) := by
  have h := Map.sorted_ofWrites (networks.map fun n => (n.1, ifaceStats n.2 (0, 0)))
  rw [statistics_text hr, Map.Sorted, List.map_map]
  exact h

omit hr in
theorem withDrops_find? (data : NetData) (name : String) :
    withDrops (ifaceStats data (0, 0)) ((t.rows.map NetDevRow.drops).find? (·.1 = name)) =
      ifaceStats data (t.dropsOf name) := by
  have hfind : (t.rows.map NetDevRow.drops).find? (·.1 = name) =
      (t.rows.find? (·.name = name)).map NetDevRow.drops := List.find?_map ..
  rw [hfind, dropsOf]
  cases t.rows.find? (·.name = name) <;> rfl

theorem mem_statistics_text {networks : List (String × NetData)}
    (hn : (interfaceNames networks).Nodup) {n : String × NetData} (h : n ∈ networks) :
    (n.1, ifaceStats n.2 (t.dropsOf n.1)) ∈ statistics r networks := by
  have hkeys : ((networks.map fun n => (n.1, ifaceStats n.2 (0, 0))).map Prod.fst).Nodup := by
    rw [List.map_map]
    exact hn
  have hm : (n.1, ifaceStats n.2 (0, 0)) ∈
      Map.ofWrites (networks.map fun n => (n.1, ifaceStats n.2 (0, 0))) :=
    (Map.mem_ofWrites_of_nodup hkeys).mpr (List.mem_map.mpr ⟨n, h, rfl⟩)
  rw [statistics_text hr, ← withDrops_find?]
  exact List.mem_map.mpr ⟨_, hm, rfl⟩

end NetDevTable

/-- One entry for each listed interface, with the drops the table has for it. -/
structure NetDevTable.Joined (t : NetDevTable) (networks : List (String × NetData))
    (out : List (String × NetIfaceStats)) : Prop where
  sorted : Map.Sorted out
  names : (out.map Prod.fst).Perm (interfaceNames networks)
  entry : ∀ n ∈ networks, (n.1, ifaceStats n.2 (t.dropsOf n.1)) ∈ out

/-- **Every drop counter of `/proc/net/dev` is recovered.** -/
theorem net_dev_exact {r : Reading} {t : NetDevTable} (hr : r.netDev = some t.text) :
    (∃ drops, readProcNetDrops r = some drops ∧ Map.Sorted drops ∧
      ∀ kv, kv ∈ drops ↔ ∃ row ∈ t.rows, kv = row.drops) ∧
    ∀ networks, (interfaceNames networks).Nodup →
      t.Joined networks (statistics r networks) := by
  refine ⟨⟨_, NetDevTable.readProcNetDrops_text hr, Map.sorted_ofWrites _, fun kv => ?_⟩,
    fun networks hn => ?_⟩
  · rw [Map.mem_ofWrites_of_nodup t.nodup_drops, List.mem_map]
    simp only [eq_comm]
  · have hsorted := NetDevTable.sorted_statistics hr networks
    have hnodup : ((statistics r networks).map Prod.fst).Nodup := hsorted.imp fun h => h.ne
    refine ⟨hsorted, ?_, fun n h => NetDevTable.mem_statistics_text hr hn h⟩
    exact (List.perm_ext_iff_of_nodup hnodup hn).mpr fun _ => mem_statistics

/-! ## A host with two interfaces -/

def loRow : NetDevRow where
  name := "lo"
  receive := ⟨1000, 10, 0, 0, 0, 0, 0, 0⟩
  transmit := ⟨1000, 10, 0, 0, 0, 0, 0, 0⟩
  pad := List.replicate 4 ' '
  layout := .spaces 3
  plain := List.all_iff_forall_prop.mp (by decide)
  isGap := isGap_spaces 4
  counters := List.all_iff_forall_prop.mp (by decide)

/-- Seven packets dropped on the way in and nine on the way out. -/
def ethRow : NetDevRow where
  name := "eth0"
  receive := ⟨5000, 50, 1, 7, 0, 0, 0, 2⟩
  transmit := ⟨6000, 60, 3, 9, 0, 4, 0, 0⟩
  pad := List.replicate 2 ' '
  layout := .spaces 0
  plain := List.all_iff_forall_prop.mp (by decide)
  isGap := isGap_spaces 2
  counters := List.all_iff_forall_prop.mp (by decide)

def droppingTable : NetDevTable where
  header₁ := "Inter-|   Receive                            |  Transmit".toList
  header₂ := " face |bytes    packets errs drop fifo".toList
  rows := [loRow, ethRow]
  headers := by decide
  distinct := by decide

/-- `wlan0` has no row in the table, and the row of `lo` no interface. -/
def listedInterfaces : List (String × NetData) :=
  [("wlan0", ⟨0, 0, 0, 0, 0, 0⟩), ("eth0", ⟨5000, 6000, 50, 60, 1, 3⟩)]

theorem net_dev_exact_droppingTable :
    droppingTable.dropsOf "eth0" = (7, 9) ∧ droppingTable.dropsOf "wlan0" = (0, 0) ∧
      droppingTable.Joined listedInterfaces
        (statistics { Reading.quiet with netDev := some droppingTable.text } listedInterfaces) :=
  ⟨by decide, by decide, (net_dev_exact rfl).2 listedInterfaces (by decide)⟩

end Vigil.Metrics

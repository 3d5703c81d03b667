import Vigil.Metrics.Rates

/-!
# Block devices and the rows they have

A transfer to a partition, or to a device that is stacked on others, also shows
in the rows of the disks below. `read_diskstats` means to sum over the physical
disks alone, and tells them by name: a row counts when `/sys/block` lists its
device, under a name that does not look like a loop or a ram device. That list
also has the stacked devices, and it spells names with a slash differently
(`mangle`), so which rows count depends on how devices are called.
-/

namespace Vigil.Metrics

open Vigil.Lib

/-! ## Devices -/

inductive BlockKind where
  | disk
  | partition (disk : String)
  | loop
  | ram
  /-- device mapper and md devices, on top of these -/
  | stacked (below : List String)
  deriving DecidableEq

structure BlockDevice where
  name : String
  kind : BlockKind
  deriving DecidableEq

namespace BlockDevice

/-- The devices that a transfer to this one is handed on to. -/
def below (d : BlockDevice) : List String :=
  match d.kind with
  | .partition disk => [disk]
  | .stacked below => below
  | _ => []

def IsPhysical (d : BlockDevice) : Prop := d.kind = .disk

instance (d : BlockDevice) : Decidable d.IsPhysical := inferInstanceAs (Decidable (_ = _))

def IsWhole (d : BlockDevice) : Prop := ∀ disk, d.kind ≠ .partition disk

theorem IsPhysical.isWhole {d : BlockDevice} (h : d.IsPhysical) : d.IsWhole := by
  intro disk hd
  rw [IsPhysical, hd] at h
  cases h

end BlockDevice

/-- A device name as sysfs writes it. -/
def mangle (name : String) : String :=
  String.ofList (name.toList.map fun c => if c = '/' then '!' else c)

structure Topology where
  devices : List BlockDevice
  /-- sysfs holds every device, partitions included, under its own name -/
  distinct : (devices.map fun d => mangle d.name).Nodup
  grounded : ∀ d ∈ devices, ∀ name ∈ d.below, name ∈ devices.map BlockDevice.name

def Topology.physicalNames (t : Topology) : List String :=
  (t.devices.filter fun d => d.IsPhysical).map BlockDevice.name

/-- The name passes the filter of `whole_disks` and is spelled alike in both listings. -/
def PlainName (name : String) : Prop :=
  '/' ∉ name.toList ∧ Text.startsWith "loop" name = false ∧ Text.startsWith "ram" name = false

instance (name : String) : Decidable (PlainName name) := inferInstanceAs (Decidable (_ ∧ _ ∧ _))

/-- The rows of `/proc/diskstats`, whatever their device. -/
def tableRows (raw : String) : List (String × DiskRow) :=
  (Text.lines raw.toList).filterMap fun line =>
    (diskRow [deviceName line] line).map fun row => (deviceName line, row)

/-- The kernel's two listings of the devices. -/
structure Topology.Describes (t : Topology) (r : IoReading) (raw : String) (names : List String) :
    Prop where
  diskstats : r.diskstats = some raw
  sysBlock : r.sysBlock = some names
  wholes : ∀ n, n ∈ names ↔ ∃ d ∈ t.devices, d.IsWhole ∧ mangle d.name = n
  rows : ∀ row ∈ tableRows raw, ∃ d ∈ t.devices, d.name = row.1
  listed : ∀ d ∈ t.devices, d.IsWhole → ∃ row ∈ tableRows raw, row.1 = d.name

/-- `read_diskstats` sums over the rows of the physical disks. -/
structure Topology.CountsOnce (t : Topology) (r : IoReading) (raw : String) : Prop where
  rows : diskDevices (wholeDisks r) raw = diskDevices t.physicalNames raw
  sums : readDiskstats r = some (exactTotals (diskRows t.physicalNames raw))

/-- Of the devices that are no partitions, the physical disks are those with a plain name. -/
def Topology.NamesTell (t : Topology) : Prop :=
  ∀ d ∈ t.devices, d.IsWhole → (d.IsPhysical ↔ PlainName d.name)

/-! ## Names -/

theorem noSlash_mangle (name : String) : '/' ∉ (mangle name).toList := by
  rw [mangle, String.toList_ofList, List.mem_map]
  rintro ⟨c, -, hc⟩
  split at hc
  · cases hc
  · next h => exact h hc

theorem mangle_of_noSlash {name : String} (h : '/' ∉ name.toList) : mangle name = name := by
  rw [← String.toList_inj, mangle, String.toList_ofList]
  refine List.map_congr_left (g := id) (fun c hc => if_neg ?_) |>.trans (List.map_id _)
  rintro rfl
  exact h hc

namespace Topology

variable {t : Topology} {r : IoReading} {raw : String} {names : List String} {d : BlockDevice}

theorem eq_of_mangle {d' : BlockDevice} (hd : d ∈ t.devices) (hd' : d' ∈ t.devices)
    (h : mangle d.name = mangle d'.name) : d = d' :=
  List.inj_on_of_nodup_map t.distinct hd hd' h

/-- A device is found by its name exactly when it is physical. -/
theorem mem_physicalNames (hd : d ∈ t.devices) : d.name ∈ t.physicalNames ↔ d.IsPhysical := by
  rw [physicalNames, List.mem_map]
  constructor
  · rintro ⟨d', hd', hname⟩
    obtain ⟨hmem, hkind⟩ := List.mem_filter.mp hd'
    obtain rfl := eq_of_mangle hmem hd (congrArg mangle hname)
    exact of_decide_eq_true hkind
  · exact fun h => ⟨d, List.mem_filter.mpr ⟨hd, decide_eq_true h⟩, rfl⟩

/-- A device counts exactly when it is no partition and has a plain name. -/
theorem mem_wholeDisks (h : t.Describes r raw names) (hd : d ∈ t.devices) :
    d.name ∈ wholeDisks r ↔ d.IsWhole ∧ PlainName d.name := by
  have hnames : d.name ∈ names ↔ d.IsWhole ∧ '/' ∉ d.name.toList := by
    rw [h.wholes]
    constructor
    · rintro ⟨d', hd', hwhole, hname⟩
      have hslash : '/' ∉ d.name.toList := hname ▸ noSlash_mangle d'.name
      obtain rfl := eq_of_mangle hd' hd (hname.trans (mangle_of_noSlash hslash).symm)
      exact ⟨hwhole, hslash⟩
    · exact fun ⟨hwhole, hslash⟩ => ⟨d, hd, hwhole, mangle_of_noSlash hslash⟩
  unfold wholeDisks PlainName
  rw [h.sysBlock]
  simp only [List.mem_filter, hnames, Bool.not_eq_true', Bool.or_eq_false_iff, and_assoc]

end Topology

/-! ## Rows -/

theorem diskRow_eq (allowed : List String) (line : List Char) : diskRow allowed line =
    if allowed.contains (deviceName line) then diskRow [deviceName line] line else none := by
  have hself : [deviceName line].contains (deviceName line) = true := by simp
  unfold diskRow
  unfold deviceName at *
  dsimp only
  rw [if_pos hself]
  by_cases hshort : (Text.splitWhitespace line).length < 14
  · simp only [if_pos hshort, ite_self]
  · simp only [if_neg hshort]

theorem diskDevices_eq (allowed : List String) (raw : String) :
    diskDevices allowed raw = (tableRows raw).filter fun d => allowed.contains d.1 := by
  rw [diskDevices, tableRows, List.filter_filterMap]
  refine List.filterMap_congr fun line _ => ?_
  rw [diskRow_eq]
  cases diskRow [deviceName line] line with
  | none => simp
  | some row => by_cases hc : deviceName line ∈ allowed <;> simp [Option.filter, hc]

theorem diskRows_eq (allowed : List String) (raw : String) :
    diskRows allowed raw =
      ((tableRows raw).filter fun d => allowed.contains d.1).map Prod.snd := by
  rw [← diskDevices_snd, diskDevices_eq]

theorem filter_eq_filter_iff {α : Type} {p q : α → Bool} {l : List α} :
    l.filter p = l.filter q ↔ ∀ x ∈ l, p x = q x := by
  refine ⟨fun h x hx => ?_, List.filter_congr⟩
  have hmem : x ∈ l.filter p ↔ x ∈ l.filter q := by rw [h]
  rw [List.mem_filter, List.mem_filter, and_iff_right hx, and_iff_right hx] at hmem
  exact Bool.eq_iff_iff.mpr hmem

namespace Topology

variable {t : Topology} {r : IoReading} {raw : String} {names : List String}

/-- The rows that count are those of the physical disks exactly when the names tell. -/
theorem rows_iff (h : t.Describes r raw names) :
    diskDevices (wholeDisks r) raw = diskDevices t.physicalNames raw ↔ t.NamesTell := by
  have hdevice : ∀ d ∈ t.devices,
      ((wholeDisks r).contains d.name = t.physicalNames.contains d.name ↔
        (d.IsWhole ∧ PlainName d.name ↔ d.IsPhysical)) := by
    intro d hd
    rw [Bool.eq_iff_iff, List.contains_iff_mem, List.contains_iff_mem, mem_wholeDisks h hd,
      mem_physicalNames hd]
  rw [diskDevices_eq, diskDevices_eq, filter_eq_filter_iff]
  constructor
  · intro hrows d hd hwhole
    obtain ⟨row, hrow, hname⟩ := h.listed d hd hwhole
    have hd' := (hdevice d hd).mp (hname ▸ hrows row hrow)
    rw [← hd', and_iff_right hwhole]
  · intro htell row hrow
    obtain ⟨d, hd, hname⟩ := h.rows row hrow
    rw [← hname, hdevice d hd]
    constructor
    · exact fun ⟨hwhole, hplain⟩ => (htell d hd hwhole).mpr hplain
    · exact fun hp => ⟨hp.isWhole, (htell d hd hp.isWhole).mp hp⟩

/-- **When every physical transfer is counted once**: when plain names are those of the physical
disks, and what these have moved fits a `u64`. -/
theorem counts_once_iff (h : t.Describes r raw names) :
    t.CountsOnce r raw ↔
      t.NamesTell ∧ (exactTotals (diskRows t.physicalNames raw)).Fits := by
  have hsame : t.NamesTell → diskRows (wholeDisks r) raw = diskRows t.physicalNames raw := by
    intro htell
    rw [← diskDevices_snd, ← diskDevices_snd, (rows_iff h).mpr htell]
  constructor
  · rintro ⟨hrows, hsums⟩
    have htell := (rows_iff h).mp hrows
    rw [← hsame htell] at hsums ⊢
    exact ⟨htell, (readDiskstats_eq_exact_iff h.diskstats).mp hsums⟩
  · rintro ⟨htell, hfits⟩
    refine ⟨(rows_iff h).mpr htell, ?_⟩
    rw [← hsame htell] at hfits ⊢
    exact (readDiskstats_eq_exact_iff h.diskstats).mpr hfits

end Topology

/-! ## Two hosts -/

def statsRow (name : String) : String :=
  "   8       0 " ++ name ++ " 10 0 100 0 20 0 100 0 0 0 0\n"

def rowOf (name : String) : String × DiskRow := (name, ⟨10, 100, 20, 100⟩)

def plainDisk : Topology where
  devices := [⟨"sda", .disk⟩, ⟨"sda1", .partition "sda"⟩]
  distinct := by decide
  grounded := by decide

def plainStats : String := statsRow "sda" ++ statsRow "sda1"

def plainReading : IoReading := ⟨0, some plainStats, some ["sda"]⟩

theorem tableRows_plainStats : tableRows plainStats = [rowOf "sda", rowOf "sda1"] := by
  with_unfolding_all rfl

theorem plainDisk_described : plainDisk.Describes plainReading plainStats ["sda"] := by
  have hmangle : mangle "sda" = "sda" := by decide
  refine ⟨rfl, rfl, ?_, ?_, ?_⟩
  · simp [plainDisk, BlockDevice.IsWhole, hmangle, eq_comm]
  · simp [tableRows_plainStats, rowOf, plainDisk]
  · simp [tableRows_plainStats, rowOf, plainDisk, BlockDevice.IsWhole]

theorem counts_once_iff_plainDisk : plainDisk.CountsOnce plainReading plainStats := by
  have hrows : diskRows plainDisk.physicalNames plainStats = [(rowOf "sda").2] := by
    rw [diskRows_eq, tableRows_plainStats]
    rfl
  refine (Topology.counts_once_iff plainDisk_described).mpr ⟨?_, ?_⟩
  · have hplain : PlainName "sda" := by decide
    simp [Topology.NamesTell, plainDisk, BlockDevice.IsWhole, BlockDevice.IsPhysical, hplain]
  · simp [hrows, rowOf, exactTotals, DiskTotals.Fits, u64Max]

/-- An encrypted disk: `dm-0` on `sda`. -/
def encryptedDisk : Topology where
  devices := [⟨"sda", .disk⟩, ⟨"dm-0", .stacked ["sda"]⟩]
  distinct := by decide
  grounded := by decide

def encryptedStats : String := statsRow "sda" ++ statsRow "dm-0"

def encryptedReading : IoReading := ⟨0, some encryptedStats, some ["sda", "dm-0"]⟩

theorem tableRows_encryptedStats :
    tableRows encryptedStats = [rowOf "sda", rowOf "dm-0"] := by
  with_unfolding_all rfl

/-- Every sector is counted twice. -/
theorem encryptedDisk_counts_twice :
    encryptedDisk.Describes encryptedReading encryptedStats ["sda", "dm-0"] ∧
      readDiskstats encryptedReading = some ⟨102400, 102400, 20, 40⟩ ∧
      exactTotals (diskRows encryptedDisk.physicalNames encryptedStats) =
        ⟨51200, 51200, 10, 20⟩ ∧
      ¬ encryptedDisk.CountsOnce encryptedReading encryptedStats := by
  have hsda : mangle "sda" = "sda" := by decide
  have hdm : mangle "dm-0" = "dm-0" := by decide
  have hread : readDiskstats encryptedReading = some ⟨102400, 102400, 20, 40⟩ := by
    have hdisks : wholeDisks encryptedReading = ["sda", "dm-0"] := by decide
    rw [readDiskstats, hdisks]
    dsimp only [encryptedReading]
    rw [diskRows_eq, tableRows_encryptedStats]
    rfl
  have hexact : exactTotals (diskRows encryptedDisk.physicalNames encryptedStats) =
      ⟨51200, 51200, 10, 20⟩ := by
    rw [diskRows_eq, tableRows_encryptedStats]
    rfl
  refine ⟨⟨rfl, rfl, ?_, ?_, ?_⟩, hread, hexact, fun h => ?_⟩
  · simp [encryptedDisk, BlockDevice.IsWhole, hsda, hdm, eq_comm]
  · simp [tableRows_encryptedStats, rowOf, encryptedDisk]
  · simp [tableRows_encryptedStats, rowOf, encryptedDisk]
  · have hsums := h.sums
    rw [hread, hexact] at hsums
    exact absurd hsums (by decide)

end Vigil.Metrics

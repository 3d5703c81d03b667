import Mathlib.Data.List.Induction
import Vigil.Lib.Text
import Vigil.Metrics.Host

/-!
# Disk space and disk I/O

`collectRoot` and `collectAll` report the usage of mounts. `collectIo` turns the
sums of `/proc/diskstats` over the whole disks into rates; its baseline is the
reading of the last tick that reached it.

The last part is about runs of `collectIo`. `IoReading.totals` are the exact
sums of a tick whose two reads succeeded, `baseline` the last such tick of a
run, and `TickLaw` what the next tick should report. A tick that reads
`/proc/diskstats` while `/sys/block` cannot be listed sums over no disk, and
overwrites the baseline with zeros: `io_law_iff` says that this is what breaks
the law, besides a rate that does not fit a `u64`.
-/

namespace Vigil.Metrics

open Vigil.Lib

/-! ## Space -/

def rootMount : String := "/"

/-- `(total, used, free, percent)` of a mount, from `statvfs`. -/
def statvfsUsage (r : Reading) (path : String) : Option (Nat × Nat × Nat × ℚ) :=
  if path.toList.contains '\x00' then none
  else
    (r.statvfs path).map fun st =>
      let total := satMul st.blocks st.frsize
      let used := satMul (st.blocks - st.bfree) st.frsize
      let free := satMul st.bavail st.frsize
      let denom := wrapAdd used free
      let percent := if 0 < denom then round1 (used / denom * 100) else 0
      (total, used, free, percent)

def usageForMount (r : Reading) (path : String) (fallbackTotal fallbackAvail : Nat) : Disk :=
  match statvfsUsage r path with
  | some (total, used, free, percent) =>
    ⟨.fin (bytesToGib total), .fin (bytesToGib used), .fin (bytesToGib free), .fin percent⟩
  | none =>
    let used := fallbackTotal - fallbackAvail
    let percent := if 0 < fallbackTotal then round1 (used / fallbackTotal * 100) else 0
    ⟨.fin (bytesToGib fallbackTotal), .fin (bytesToGib used), .fin (bytesToGib fallbackAvail),
      .fin percent⟩

def collectRoot (r : Reading) (disks : List Mount) : Disk :=
  let target := (disks.find? (·.mountpoint = rootMount)).or
    ((disks.find? (·.mountpoint = "/")).or disks.head?)
  match target with
  | some d => usageForMount r d.mountpoint d.totalSpace d.availableSpace
  | none => .default

/-- The file systems `/proc/filesystems` marks as having no device. -/
def nodevFilesystems (r : Reading) : List String :=
  match r.filesystems with
  | none => []
  | some raw =>
    (Text.lines raw.toList).filterMap (fun line =>
      (Text.stripPrefix "nodev" line).map fun rest => String.ofList (Text.trim rest)) ++
      ["fuse.snapfuse"]

def collectAll (r : Reading) (disks : List Mount) : List DiskInfo :=
  let nodev := nodevFilesystems r
  disks.filterMap fun d =>
    if !Text.startsWith "/" d.device then none
    else if nodev.contains d.fstype then none
    else
      let u := usageForMount r d.mountpoint d.totalSpace d.availableSpace
      some ⟨d.device, d.mountpoint, d.fstype, u.total, u.used, u.free, u.percent⟩

/-! ## I/O -/

/-- The names in `/sys/block` but for loop and ram devices; none when it cannot be listed. -/
def wholeDisks (r : IoReading) : List String :=
  match r.sysBlock with
  | none => []
  | some names => names.filter fun n => !(Text.startsWith "loop" n || Text.startsWith "ram" n)

structure DiskRow where
  readOps : Nat
  readSectors : Nat
  writeOps : Nat
  writeSectors : Nat

/-- The row of a line, if it is a row of an allowed device. -/
def diskRow (allowed : List String) (line : List Char) : Option DiskRow :=
  let f := Text.splitWhitespace line
  let num i := (Text.parseU64 (f.getD i [])).getD 0
  if f.length < 14 then none
  else if allowed.contains (String.ofList (f.getD 2 [])) then some ⟨num 3, num 5, num 7, num 9⟩
  else none

def diskRows (allowed : List String) (raw : String) : List DiskRow :=
  (Text.lines raw.toList).filterMap (diskRow allowed)

/-- The four totals `read_diskstats` returns. -/
structure DiskTotals where
  readBytes : Nat
  writeBytes : Nat
  readOps : Nat
  writeOps : Nat
  deriving DecidableEq

def DiskRow.add (a b : DiskRow) : DiskRow :=
  ⟨satAdd a.readOps b.readOps, satAdd a.readSectors b.readSectors, satAdd a.writeOps b.writeOps,
    satAdd a.writeSectors b.writeSectors⟩

def readDiskstats (r : IoReading) : Option DiskTotals :=
  match r.diskstats with
  | none => none
  | some raw =>
    let s := (diskRows (wholeDisks r) raw).foldl DiskRow.add ⟨0, 0, 0, 0⟩
    some ⟨wrapMul s.readSectors 512, wrapMul s.writeSectors 512, s.readOps, s.writeOps⟩

structure DiskIoPrev where
  now : ℚ
  totals : DiskTotals
  deriving DecidableEq

/-- `(delta as f64 / elapsed).round() as u64`. -/
def perSec (delta : Nat) (elapsed : ℚ) : Nat := intToU64 (roundHalfAway (delta / elapsed))

def collectIo (prev : Option DiskIoPrev) (r : IoReading) : DiskIo × Option DiskIoPrev :=
  match readDiskstats r with
  | none => (.default, prev)
  | some t =>
    let next := some ⟨r.now, t⟩
    match prev with
    | none => (.default, next)
    | some last =>
      let elapsed := max (r.now - last.now) 0
      if elapsed ≤ 0 then (.default, next)
      else
        (⟨perSec (t.readBytes - last.totals.readBytes) elapsed,
          perSec (t.writeBytes - last.totals.writeBytes) elapsed,
          perSec (t.readOps - last.totals.readOps) elapsed,
          perSec (t.writeOps - last.totals.writeOps) elapsed⟩, next)

/-! ## Exact totals -/

def exactTotals (rows : List DiskRow) : DiskTotals :=
  ⟨(rows.map DiskRow.readSectors).sum * 512, (rows.map DiskRow.writeSectors).sum * 512,
    (rows.map DiskRow.readOps).sum, (rows.map DiskRow.writeOps).sum⟩

/-- The totals of a tick with both reads successful. -/
def IoReading.totals (r : IoReading) : Option DiskTotals :=
  match r.diskstats, r.sysBlock with
  | some raw, some _ => some (exactTotals (diskRows (wholeDisks r) raw))
  | _, _ => none

namespace DiskTotals

def Fits (t : DiskTotals) : Prop :=
  t.readBytes ≤ u64Max ∧ t.writeBytes ≤ u64Max ∧ t.readOps ≤ u64Max ∧ t.writeOps ≤ u64Max

def le (s t : DiskTotals) : Prop :=
  s.readBytes ≤ t.readBytes ∧ s.writeBytes ≤ t.writeBytes ∧ s.readOps ≤ t.readOps ∧
    s.writeOps ≤ t.writeOps

end DiskTotals

def DiskRow.le (a b : DiskRow) : Prop :=
  a.readOps ≤ b.readOps ∧ a.readSectors ≤ b.readSectors ∧ a.writeOps ≤ b.writeOps ∧
    a.writeSectors ≤ b.writeSectors

/-- Over a fixed set of disks with non-decreasing counters the totals do not decrease. -/
theorem exactTotals_mono {rows rows' : List DiskRow} (h : List.Forall₂ DiskRow.le rows rows') :
    (exactTotals rows).le (exactTotals rows') := by
  have hsum : ∀ f : DiskRow → Nat, (∀ a b, DiskRow.le a b → f a ≤ f b) →
      (rows.map f).sum ≤ (rows'.map f).sum := by
    intro f hf
    induction h with
    | nil => exact Nat.le_refl _
    | cons hab _ ih => exact Nat.add_le_add (hf _ _ hab) ih
  exact ⟨Nat.mul_le_mul_right _ (hsum _ fun _ _ h => h.2.1),
    Nat.mul_le_mul_right _ (hsum _ fun _ _ h => h.2.2.2), hsum _ fun _ _ h => h.1,
    hsum _ fun _ _ h => h.2.2.1⟩

theorem foldl_add (rows : List DiskRow) (a : DiskRow) :
    rows.foldl DiskRow.add a =
      ⟨(rows.map DiskRow.readOps).foldl satAdd a.readOps,
        (rows.map DiskRow.readSectors).foldl satAdd a.readSectors,
        (rows.map DiskRow.writeOps).foldl satAdd a.writeOps,
        (rows.map DiskRow.writeSectors).foldl satAdd a.writeSectors⟩ := by
  induction rows generalizing a with
  | nil => rfl
  | cons r rows ih => rw [List.foldl_cons, ih]; rfl

/-- When the exact totals fit, neither a saturating sum nor the conversion to bytes loses any. -/
theorem readDiskstats_eq_exact {r : IoReading} {raw : String} (hraw : r.diskstats = some raw)
    (hf : (exactTotals (diskRows (wholeDisks r) raw)).Fits) :
    readDiskstats r = some (exactTotals (diskRows (wholeDisks r) raw)) := by
  have hsum : ∀ l : List Nat, l.sum ≤ u64Max → l.foldl satAdd 0 = l.sum := by
    intro l hl
    rw [foldl_satAdd_zero, min_eq_left hl]
  obtain ⟨h1, h2, h3, h4⟩ := hf
  unfold readDiskstats
  rw [hraw]
  dsimp only [exactTotals] at *
  rw [foldl_add]
  dsimp only
  rw [hsum _ h3, hsum _ h4, hsum _ (le_trans (Nat.le_mul_of_pos_right _ (by norm_num)) h1),
    hsum _ (le_trans (Nat.le_mul_of_pos_right _ (by norm_num)) h2), wrapMul_of_le h1,
    wrapMul_of_le h2]

/-- What `read_diskstats` returns is in range, so it is the exact sums only where these are. -/
theorem readDiskstats_eq_exact_iff {r : IoReading} {raw : String} (hraw : r.diskstats = some raw) :
    readDiskstats r = some (exactTotals (diskRows (wholeDisks r) raw)) ↔
      (exactTotals (diskRows (wholeDisks r) raw)).Fits := by
  refine ⟨fun h => ?_, readDiskstats_eq_exact hraw⟩
  have hwrap : ∀ n : Nat, wrapMul n 512 ≤ u64Max := fun n =>
    Nat.le_sub_one_of_lt (Nat.mod_lt _ (by norm_num))
  have hsat : ∀ l : List Nat, l.foldl satAdd 0 ≤ u64Max := by
    intro l
    rw [foldl_satAdd_zero]
    exact min_le_right _ _
  rw [readDiskstats, hraw] at h
  rw [← Option.some.inj h, foldl_add]
  exact ⟨hwrap _, hwrap _, hsat _, hsat _⟩

theorem readDiskstats_of_totals {r : IoReading} {t : DiskTotals} (h : r.totals = some t)
    (hf : t.Fits) : readDiskstats r = some t := by
  unfold IoReading.totals at h
  split at h
  · next raw names hraw hnames =>
    cases h
    exact readDiskstats_eq_exact hraw hf
  · cases h

/-! ## Runs of `collect_io` -/

/-- What the code holds after the ticks of a run. -/
def prevAfter (ticks : List IoReading) : Option DiskIoPrev :=
  ticks.foldl (fun p t => (collectIo p t).2) none

/-- The last tick with both reads successful. -/
def baseline (ticks : List IoReading) : Option DiskIoPrev :=
  ticks.reverse.findSome? fun t => t.totals.map fun tot => ⟨t.now, tot⟩

@[simp] theorem prevAfter_nil : prevAfter [] = none := rfl

@[simp] theorem prevAfter_snoc (fs : List IoReading) (t : IoReading) :
    prevAfter (fs ++ [t]) = (collectIo (prevAfter fs) t).2 := by
  simp [prevAfter]

@[simp] theorem baseline_nil : baseline [] = none := rfl

@[simp] theorem baseline_snoc (fs : List IoReading) (t : IoReading) :
    baseline (fs ++ [t]) = (t.totals.map fun tot => ⟨t.now, tot⟩).or (baseline fs) := by
  cases h : t.totals <;> simp [baseline, h]

/-- The exact rate between two totals, before rounding. -/
def rate (cur last : Nat) (elapsed : ℚ) : ℚ := (cur - last) / elapsed

/-- The four rates since `last` round to the four numbers reported. -/
def RatesExact (d : DiskIo) (t : DiskTotals) (last : DiskIoPrev) (elapsed : ℚ) : Prop :=
  (d.readBytesPerSec : ℤ) = roundHalfAway (rate t.readBytes last.totals.readBytes elapsed) ∧
  (d.writeBytesPerSec : ℤ) = roundHalfAway (rate t.writeBytes last.totals.writeBytes elapsed) ∧
  (d.readIops : ℤ) = roundHalfAway (rate t.readOps last.totals.readOps elapsed) ∧
  (d.writeIops : ℤ) = roundHalfAway (rate t.writeOps last.totals.writeOps elapsed)

/-- What the tick `t` after the ticks `fs` should do: with both reads successful, report the rates
since the last such tick; otherwise report zeros and leave the baseline as it was. -/
def TickLaw (fs : List IoReading) (t : IoReading) : Prop :=
  match t.totals with
  | some tot =>
    match baseline fs with
    | some last => RatesExact (collectIo (prevAfter fs) t).1 tot last (t.now - last.now)
    | none => (collectIo (prevAfter fs) t).1 = .default
  | none => collectIo (prevAfter fs) t = (.default, prevAfter fs)

/-- `/proc/diskstats` can be read and `/sys/block` cannot be listed. -/
def IoReading.Blind (t : IoReading) : Prop := t.diskstats.isSome ∧ t.sysBlock = none

def RatesFit (fs : List IoReading) (t : IoReading) : Prop :=
  ∀ tot last, t.totals = some tot → baseline fs = some last →
    roundHalfAway (rate tot.readBytes last.totals.readBytes (t.now - last.now)) ≤ u64Max ∧
    roundHalfAway (rate tot.writeBytes last.totals.writeBytes (t.now - last.now)) ≤ u64Max ∧
    roundHalfAway (rate tot.readOps last.totals.readOps (t.now - last.now)) ≤ u64Max ∧
    roundHalfAway (rate tot.writeOps last.totals.writeOps (t.now - last.now)) ≤ u64Max

/-- A run at strictly increasing times whose totals do not decrease and stay below `2^64`. -/
structure IoRun (ticks : List IoReading) : Prop where
  times : ticks.Pairwise (·.now < ·.now)
  mono : (ticks.filterMap IoReading.totals).Pairwise DiskTotals.le
  fits : ∀ t ∈ ticks, ∀ tot, t.totals = some tot → tot.Fits

theorem IoRun.initial {fs gs : List IoReading} (h : IoRun (fs ++ gs)) : IoRun fs where
  times := (List.pairwise_append.mp h.times).1
  mono := by
    have := h.mono
    rw [List.filterMap_append] at this
    exact (List.pairwise_append.mp this).1
  fits t ht := h.fits t (List.mem_append_left _ ht)

theorem collectIo_snd (prev : Option DiskIoPrev) (r : IoReading) :
    (collectIo prev r).2 = ((readDiskstats r).map fun t => ⟨r.now, t⟩).or prev := by
  unfold collectIo
  cases readDiskstats r with
  | none => rfl
  | some t =>
    cases prev with
    | none => rfl
    | some last => dsimp only; split <;> rfl

theorem now_of_prevAfter {fs : List IoReading} {p : DiskIoPrev} (h : prevAfter fs = some p) :
    ∃ t ∈ fs, p.now = t.now := by
  induction fs using List.reverseRecOn with
  | nil => cases h
  | append_singleton fs t ih =>
    rw [prevAfter_snoc, collectIo_snd] at h
    cases hd : readDiskstats t with
    | none =>
      rw [hd] at h
      obtain ⟨t', ht', hp⟩ := ih h
      exact ⟨t', List.mem_append_left _ ht', hp⟩
    | some tot =>
      rw [hd] at h
      cases h
      exact ⟨t, List.mem_append_right _ (List.mem_singleton_self t), rfl⟩

theorem mem_of_baseline {fs : List IoReading} {last : DiskIoPrev} (h : baseline fs = some last) :
    ∃ t ∈ fs, last.now = t.now ∧ t.totals = some last.totals := by
  obtain ⟨t, ht, hm⟩ := List.exists_of_findSome?_eq_some h
  obtain ⟨tot, htot, rfl⟩ := Option.map_eq_some_iff.mp hm
  exact ⟨t, List.mem_reverse.mp ht, rfl, htot⟩

theorem diskstats_of_not_blind {t : IoReading} (hb : ¬ t.Blind) (ht : t.totals = none) :
    t.diskstats = none := by
  unfold IoReading.totals at ht
  unfold IoReading.Blind at hb
  cases hd : t.diskstats with
  | none => rfl
  | some raw => cases hs : t.sysBlock <;> simp_all

theorem readDiskstats_eq {t : IoReading} (hb : ¬ t.Blind)
    (hf : ∀ tot, t.totals = some tot → tot.Fits) : readDiskstats t = t.totals := by
  cases ht : t.totals with
  | some tot => exact readDiskstats_of_totals ht (hf tot ht)
  | none => rw [readDiskstats, diskstats_of_not_blind hb ht]

/-- Without blind ticks the code holds the last tick with both reads successful. -/
theorem prevAfter_eq_baseline {fs : List IoReading} (hr : IoRun fs) (hb : ∀ t ∈ fs, ¬ t.Blind) :
    prevAfter fs = baseline fs := by
  induction fs using List.reverseRecOn with
  | nil => rfl
  | append_singleton fs t ih =>
    have ht : t ∈ fs ++ [t] := List.mem_append_right _ (List.mem_singleton_self t)
    rw [prevAfter_snoc, collectIo_snd, baseline_snoc, readDiskstats_eq (hb t ht) (hr.fits t ht),
      ih hr.initial fun x hx => hb x (List.mem_append_left _ hx)]

theorem rate_nonneg {cur last : Nat} {elapsed : ℚ} (hle : last ≤ cur) (he : 0 < elapsed) :
    0 ≤ rate cur last elapsed := div_nonneg (sub_nonneg.mpr (Nat.cast_le.mpr hle)) he.le

theorem perSec_eq_iff {cur last : Nat} {elapsed : ℚ} (hle : last ≤ cur) (he : 0 < elapsed) :
    (perSec (cur - last) elapsed : ℤ) = roundHalfAway (rate cur last elapsed) ↔
      roundHalfAway (rate cur last elapsed) ≤ u64Max := by
  rw [perSec, Nat.cast_sub hle]
  exact intToU64_eq_iff (roundHalfAway_nonneg (rate_nonneg hle he))

/-- From the right baseline a tick that is not blind keeps the law when its rates fit. -/
theorem tickLaw_iff {fs : List IoReading} {t : IoReading} (hr : IoRun (fs ++ [t]))
    (hb : ¬ t.Blind) (hp : prevAfter fs = baseline fs) : TickLaw fs t ↔ RatesFit fs t := by
  have hmem : t ∈ fs ++ [t] := List.mem_append_right _ (List.mem_singleton_self t)
  have hd := readDiskstats_eq hb (hr.fits t hmem)
  unfold TickLaw RatesFit
  cases ht : t.totals with
  | none =>
    rw [ht] at hd
    exact iff_of_true (by simp [collectIo, hd]) fun _ _ h => by cases h
  | some tot =>
    rw [ht] at hd
    cases hbase : baseline fs with
    | none =>
      rw [hbase] at hp
      exact iff_of_true (by simp [collectIo, hd, hp]) fun _ _ _ h => by cases h
    | some last =>
      rw [hbase] at hp
      obtain ⟨t₀, ht₀, hnow, htot⟩ := mem_of_baseline hbase
      have hlt : last.now < t.now :=
        hnow ▸ (List.pairwise_append.mp hr.times).2.2 t₀ ht₀ t (List.mem_singleton_self t)
      have hpos : 0 < t.now - last.now := sub_pos.mpr hlt
      have hle : last.totals.le tot := by
        have := hr.mono
        rw [List.filterMap_append] at this
        exact (List.pairwise_append.mp this).2.2 _ (List.mem_filterMap.mpr ⟨t₀, ht₀, htot⟩) _
          (List.mem_filterMap.mpr ⟨t, List.mem_singleton_self t, ht⟩)
      obtain ⟨h1, h2, h3, h4⟩ := hle
      simp only [collectIo, hd, hp, max_eq_left hpos.le, not_le.mpr hpos, if_false, RatesExact,
        perSec_eq_iff h1 hpos, perSec_eq_iff h2 hpos, perSec_eq_iff h3 hpos, perSec_eq_iff h4 hpos,
        Option.some.injEq]
      constructor
      · rintro h _ _ rfl rfl
        exact h
      · intro h
        exact h tot last rfl rfl

/-- A blind tick breaks the law: it overwrites the baseline. -/
theorem not_tickLaw_of_blind {fs : List IoReading} {t : IoReading} (hr : IoRun (fs ++ [t]))
    (hb : t.Blind) : ¬ TickLaw fs t := by
  intro hl
  obtain ⟨hd, hs⟩ := hb
  obtain ⟨raw, hraw⟩ := Option.isSome_iff_exists.mp hd
  have ht : t.totals = none := by simp [IoReading.totals, hraw, hs]
  simp only [TickLaw, ht] at hl
  have hp : prevAfter fs = (collectIo (prevAfter fs) t).2 := by rw [hl]
  obtain ⟨tot, htot⟩ : ∃ tot, readDiskstats t = some tot := by
    unfold readDiskstats
    rw [hraw]
    exact ⟨_, rfl⟩
  rw [collectIo_snd, htot] at hp
  obtain ⟨t₀, ht₀, hnow⟩ := now_of_prevAfter hp
  have := (List.pairwise_append.mp hr.times).2.2 t₀ ht₀ t (List.mem_singleton_self t)
  exact absurd hnow this.ne'

/-- **When failed reads leave the disk I/O baseline alone.** Every tick of a run keeps the law
exactly when no tick reads `/proc/diskstats` while `/sys/block` cannot be listed, and every rate
fits a `u64`. -/
theorem io_law_iff {ticks : List IoReading} (hr : IoRun ticks) :
    (∀ fs t gs, ticks = fs ++ t :: gs → TickLaw fs t) ↔
      (∀ t ∈ ticks, ¬ t.Blind) ∧ ∀ fs t gs, ticks = fs ++ t :: gs → RatesFit fs t := by
  have hpre : ∀ {fs t gs}, ticks = fs ++ t :: gs → IoRun (fs ++ [t]) := by
    intro fs t gs h
    have hr' : IoRun ((fs ++ [t]) ++ gs) := by
      rwa [List.append_assoc, List.singleton_append, ← h]
    exact hr'.initial
  have hprev : (∀ t ∈ ticks, ¬ t.Blind) →
      ∀ {fs t gs}, ticks = fs ++ t :: gs → prevAfter fs = baseline fs := by
    intro hb fs t gs h
    refine prevAfter_eq_baseline (hpre h).initial fun x hx => hb x ?_
    rw [h]
    exact List.mem_append_left _ hx
  constructor
  · intro hl
    have hb : ∀ t ∈ ticks, ¬ t.Blind := by
      intro t ht hbt
      obtain ⟨fs, gs, h⟩ := List.append_of_mem ht
      exact not_tickLaw_of_blind (hpre h) hbt (hl fs t gs h)
    refine ⟨hb, fun fs t gs h => ?_⟩
    have ht : t ∈ ticks := h ▸ List.mem_append_right _ (List.mem_cons_self ..)
    exact (tickLaw_iff (hpre h) (hb t ht) (hprev hb h)).mp (hl fs t gs h)
  · rintro ⟨hb, hf⟩ fs t gs h
    have ht : t ∈ ticks := h ▸ List.mem_append_right _ (List.mem_cons_self ..)
    exact (tickLaw_iff (hpre h) (hb t ht) (hprev hb h)).mpr (hf fs t gs h)

/-! ## Two runs over one disk -/

def sdaRow (sectors : String) : String :=
  "   8       0 sda 10 0 " ++ sectors ++ " 0 20 0 " ++ sectors ++ " 0 0 0 0\n"

/-- The disk stays idle, and `/sys/block` cannot be listed the second time. -/
def idleDisk : List IoReading :=
  [⟨0, some (sdaRow "100"), some ["sda"]⟩, ⟨1, some (sdaRow "100"), none⟩,
    ⟨2, some (sdaRow "100"), some ["sda"]⟩]

/-- The third tick reports all that was read and written since boot. -/
theorem idleDisk_breaks_law :
    (collectIo (prevAfter (idleDisk.take 2)) (idleDisk.getD 2 ⟨0, none, none⟩)).1 =
      ⟨51200, 51200, 10, 20⟩ ∧
    ¬ ∀ fs t gs, idleDisk = fs ++ t :: gs → TickLaw fs t := by
  refine ⟨by with_unfolding_all rfl, fun h => ?_⟩
  have hl := h (idleDisk.take 1) ⟨1, some (sdaRow "100"), none⟩ (idleDisk.drop 2) rfl
  have hp : (collectIo (prevAfter (idleDisk.take 1)) ⟨1, some (sdaRow "100"), none⟩).2 =
      some ⟨1, ⟨0, 0, 0, 0⟩⟩ := by with_unfolding_all rfl
  have hq : prevAfter (idleDisk.take 1) = some ⟨0, ⟨51200, 51200, 10, 20⟩⟩ := by
    with_unfolding_all rfl
  have he : collectIo (prevAfter (idleDisk.take 1)) ⟨1, some (sdaRow "100"), none⟩ =
      (.default, prevAfter (idleDisk.take 1)) := hl
  rw [he, hq] at hp
  simp at hp

/-- The disk moves 100 sectors each way in two seconds, and a read fails in between. -/
def busyDisk : List IoReading :=
  [⟨0, some (sdaRow "100"), some ["sda"]⟩, ⟨1, none, some ["sda"]⟩,
    ⟨2, some (sdaRow "200"), some ["sda"]⟩]

theorem busyDisk_law : IoRun busyDisk ∧ ∀ fs t gs, busyDisk = fs ++ t :: gs → TickLaw fs t := by
  have h0 : (⟨0, some (sdaRow "100"), some ["sda"]⟩ : IoReading).totals =
      some ⟨51200, 51200, 10, 20⟩ := by with_unfolding_all rfl
  have h2 : (⟨2, some (sdaRow "200"), some ["sda"]⟩ : IoReading).totals =
      some ⟨102400, 102400, 10, 20⟩ := by with_unfolding_all rfl
  have h1 : (⟨1, none, some ["sda"]⟩ : IoReading).totals = none := rfl
  have hrun : IoRun busyDisk := by
    refine ⟨by simp [busyDisk], ?_, ?_⟩
    · simp [busyDisk, h0, h1, h2, DiskTotals.le]
    · simp [busyDisk, h0, h1, h2, DiskTotals.Fits, u64Max]
  refine ⟨hrun, (io_law_iff hrun).mpr ⟨by simp [busyDisk, IoReading.Blind], ?_⟩⟩
  intro fs t gs h tot last ht hb
  rcases fs with _ | ⟨a, _ | ⟨b, _ | ⟨c, fs⟩⟩⟩
  · cases hb
  · simp only [busyDisk, List.cons_append, List.nil_append, List.cons.injEq] at h
    obtain ⟨-, rfl, -⟩ := h
    rw [h1] at ht
    cases ht
  · simp only [busyDisk, List.cons_append, List.nil_append, List.cons.injEq] at h
    obtain ⟨rfl, rfl, rfl, -⟩ := h
    rw [h2] at ht
    simp only [baseline, List.reverse_cons, List.reverse_nil, List.nil_append,
      List.singleton_append, List.findSome?_cons, h0, h1, Option.map_none, Option.map_some,
      Option.some.injEq] at hb
    cases ht
    cases hb
    decide +kernel
  · simp [busyDisk] at h

end Vigil.Metrics

import Vigil.Metrics.Disk

/-!
# Where the disk arithmetic leaves `u64`

The disk collectors saturate almost everywhere, but `statvfs_usage` adds two
saturated products with a plain `+`, and `read_diskstats` scales its saturated
sums with a plain `*`. A release build wraps there (`statvfsUsage`,
`readDiskstats`) and a debug build panics: `statvfsUsageDebug` and
`readDiskstatsDebug` are the same code with checked operators.
-/

namespace Vigil.Metrics

open Vigil.Lib

/-! ## The debug build -/

def statvfsUsageDebug (r : Reading) (path : String) : Flow (Option (Nat × Nat × Nat × ℚ)) :=
  if path.toList.contains '\x00' then .ok none
  else
    match r.statvfs path with
    | none => .ok none
    | some st =>
      let total := satMul st.blocks st.frsize
      let used := satMul (st.blocks - st.bfree) st.frsize
      let free := satMul st.bavail st.frsize
      (checkedAdd used free).bind fun denom =>
        let percent := if 0 < denom then round1 (used / denom * 100) else 0
        .ok (some (total, used, free, percent))

def readDiskstatsDebug (r : IoReading) : Flow (Option DiskTotals) :=
  match r.diskstats with
  | none => .ok none
  | some raw =>
    let s := (diskRows (wholeDisks r) raw).foldl DiskRow.add ⟨0, 0, 0, 0⟩
    (checkedMul s.readSectors 512).bind fun readBytes =>
      (checkedMul s.writeSectors 512).bind fun writeBytes =>
        .ok (some ⟨readBytes, writeBytes, s.readOps, s.writeOps⟩)

/-- The reply of `statvfs` for a path it can be asked about. -/
def statvfsReply (r : Reading) (path : String) : Option Statvfs :=
  if path.toList.contains '\x00' then none else r.statvfs path

/-- The space in use and the space available add up within `u64`. -/
def Statvfs.Fits (st : Statvfs) : Prop :=
  (st.blocks - st.bfree + st.bavail) * st.frsize ≤ u64Max ∨ st.blocks ≤ st.bfree ∨ st.bavail = 0

instance (st : Statvfs) : Decidable st.Fits := inferInstanceAs (Decidable (_ ∨ _ ∨ _))

/-- The sectors of the whole disks, in bytes, fit a `u64`. -/
def SectorsFit (r : IoReading) : Prop :=
  ∀ raw, r.diskstats = some raw →
    (exactTotals (diskRows (wholeDisks r) raw)).readBytes ≤ u64Max ∧
      (exactTotals (diskRows (wholeDisks r) raw)).writeBytes ≤ u64Max

instance (r : IoReading) : Decidable (SectorsFit r) :=
  inferInstanceAs (Decidable (∀ raw, r.diskstats = some raw → _))

theorem Statvfs.fits_iff {st : Statvfs} : st.Fits ↔
    satMul (st.blocks - st.bfree) st.frsize + satMul st.bavail st.frsize ≤ u64Max := by
  rw [satMul_add_satMul_le_iff, Nat.sub_eq_zero_iff_le]
  rfl

/-- The debug build of `statvfs_usage` runs into the addition, or agrees with the release build. -/
theorem statvfsUsageDebug_eq (r : Reading) (path : String) : statvfsUsageDebug r path =
    if ∀ st, statvfsReply r path = some st → st.Fits then .ok (statvfsUsage r path)
    else .panic := by
  unfold statvfsUsageDebug statvfsUsage statvfsReply
  split
  · simp
  · cases r.statvfs path with
    | none => simp
    | some st =>
      simp only [Option.some.injEq, forall_eq', Option.map_some, Statvfs.fits_iff]
      by_cases h : satMul (st.blocks - st.bfree) st.frsize + satMul st.bavail st.frsize ≤ u64Max
      · rw [if_pos h, checkedAdd, if_pos h, wrapAdd_of_le h]
        rfl
      · rw [if_neg h, checkedAdd, if_neg h]
        rfl

/-- The debug build of `read_diskstats` runs into a multiplication, or agrees with the release
build. -/
theorem readDiskstatsDebug_eq (r : IoReading) : readDiskstatsDebug r =
    if SectorsFit r then .ok (readDiskstats r) else .panic := by
  cases hr : r.diskstats with
  | none => simp [readDiskstatsDebug, readDiskstats, SectorsFit, hr]
  | some raw =>
    have hsum : ∀ l : List Nat, l.foldl satAdd 0 * 512 ≤ u64Max ↔ l.sum * 512 ≤ u64Max := by
      intro l
      rw [foldl_satAdd_zero, min_mul_le_iff (by norm_num)]
    simp only [readDiskstatsDebug, readDiskstats, SectorsFit, hr, foldl_add, Option.some.injEq,
      forall_eq', exactTotals, ← hsum]
    generalize ((diskRows (wholeDisks r) raw).map DiskRow.readSectors).foldl satAdd 0 = n
    generalize ((diskRows (wholeDisks r) raw).map DiskRow.writeSectors).foldl satAdd 0 = m
    unfold checkedMul
    by_cases hn : n * 512 ≤ u64Max
    · by_cases hm : m * 512 ≤ u64Max
      · rw [if_pos hn, if_pos hm, if_pos ⟨hn, hm⟩, wrapMul_of_le hn, wrapMul_of_le hm]
        rfl
      · have hno : ¬ (n * 512 ≤ u64Max ∧ m * 512 ≤ u64Max) := fun h => hm h.2
        rw [if_pos hn, if_neg hm, if_neg hno]
        rfl
    · have hno : ¬ (n * 512 ≤ u64Max ∧ m * 512 ≤ u64Max) := fun h => hn h.1
      rw [if_neg hn, if_neg hno]
      rfl

/-! ## Percentages -/

theorem round1_percent_mem {part whole : Nat} (h : part ≤ whole) :
    0 ≤ round1 (part / whole * 100) ∧ round1 (part / whole * 100) ≤ 100 := by
  have hzero : round1 0 = 0 := by decide +kernel
  have hhundred : round1 100 = 100 := by decide +kernel
  have hle : (part : ℚ) / whole ≤ 1 := div_le_one_of_le₀ (Nat.cast_le.mpr h) (Nat.cast_nonneg _)
  have hnn : (0 : ℚ) ≤ part / whole := by positivity
  constructor
  · calc (0 : ℚ) = round1 0 := hzero.symm
      _ ≤ round1 (part / whole * 100) := round1_mono (by linarith)
  · calc round1 (part / whole * 100) ≤ round1 100 := round1_mono (by linarith)
      _ = 100 := hhundred

theorem percent_mem {part whole : Nat} (h : part ≤ whole) {q : ℚ}
    (hq : q = if 0 < whole then round1 (part / whole * 100) else 0) : 0 ≤ q ∧ q ≤ 100 := by
  rw [hq]
  split
  · exact round1_percent_mem h
  · norm_num

theorem statvfsUsage_used_le {r : Reading} {path : String} {total used free : Nat} {percent : ℚ}
    (h : statvfsUsage r path = some (total, used, free, percent)) : used ≤ total := by
  unfold statvfsUsage at h
  split at h
  · cases h
  · obtain ⟨st, -, he⟩ := Option.map_eq_some_iff.mp h
    simp only [Prod.mk.injEq] at he
    obtain ⟨rfl, rfl, -⟩ := he
    exact min_le_min_right _ (Nat.mul_le_mul_right _ (Nat.sub_le _ _))

theorem statvfsUsage_percent_mem {r : Reading} {path : String} {total used free : Nat} {percent : ℚ}
    (hf : ∀ st, statvfsReply r path = some st → st.Fits)
    (h : statvfsUsage r path = some (total, used, free, percent)) :
    0 ≤ percent ∧ percent ≤ 100 := by
  unfold statvfsUsage at h
  unfold statvfsReply at hf
  split at h
  · cases h
  · next hpath =>
    rw [if_neg hpath] at hf
    obtain ⟨st, hst, he⟩ := Option.map_eq_some_iff.mp h
    have hfit := Statvfs.fits_iff.mp (hf st hst)
    simp only [Prod.mk.injEq, wrapAdd_of_le hfit] at he
    obtain ⟨-, -, -, hp⟩ := he
    exact percent_mem (Nat.le_add_right _ _) hp.symm

/-! ## The whole collector -/

/-- On this mount and these tables nothing overflows, and the figures are in range. -/
structure ArithmeticSafe (r : Reading) (path : String) (fallbackTotal fallbackAvail : Nat)
    (io : IoReading) : Prop where
  space : (statvfsUsageDebug r path).isPanic = false
  io : (readDiskstatsDebug io).isPanic = false
  usage : ∀ total used free percent, statvfsUsage r path = some (total, used, free, percent) →
    used ≤ total ∧ 0 ≤ percent ∧ percent ≤ 100
  fallback : statvfsUsage r path = none →
    ∃ q : ℚ, (usageForMount r path fallbackTotal fallbackAvail).percent = .fin q ∧ 0 ≤ q ∧ q ≤ 100

/-- **When the disk arithmetic is safe**: exactly when what is in use and what is available add up
within `u64`, and the sectors of the whole disks do in bytes. -/
theorem arithmetic_safe_iff (r : Reading) (path : String) (fallbackTotal fallbackAvail : Nat)
    (io : IoReading) : ArithmeticSafe r path fallbackTotal fallbackAvail io ↔
      (∀ st, statvfsReply r path = some st → st.Fits) ∧ SectorsFit io := by
  have hspace : (statvfsUsageDebug r path).isPanic = false ↔
      ∀ st, statvfsReply r path = some st → st.Fits := by
    rw [statvfsUsageDebug_eq]
    split
    · next h => exact iff_of_true rfl h
    · next h => exact iff_of_false (by simp) h
  have hio : (readDiskstatsDebug io).isPanic = false ↔ SectorsFit io := by
    rw [readDiskstatsDebug_eq]
    split <;> simp [*]
  constructor
  · intro h
    exact ⟨hspace.mp h.space, hio.mp h.io⟩
  · rintro ⟨hf, hs⟩
    refine ⟨hspace.mpr hf, hio.mpr hs, ?_, ?_⟩
    · intro total used free percent h
      exact ⟨statvfsUsage_used_le h, statvfsUsage_percent_mem hf h⟩
    · intro hnone
      unfold usageForMount
      rw [hnone]
      exact ⟨_, rfl, percent_mem (Nat.sub_le _ _) rfl⟩

/-- A host whose mount has all of its bytes in use, and two bytes available. -/
def fullMount : Reading :=
  { Reading.quiet with statvfs := fun _ => some ⟨u64Max, 0, 2, 1⟩ }

/-- The release build divides by the sum modulo `2^64`, which is 1. -/
theorem fullMount_overflows :
    statvfsUsage fullMount "/" = some (u64Max, u64Max, 2, 1844674407370955161500) ∧
      ¬ ArithmeticSafe fullMount "/" 0 0 fullMount.diskIo := by
  have husage : statvfsUsage fullMount "/" = some (u64Max, u64Max, 2, 1844674407370955161500) := by
    decide +kernel
  refine ⟨husage, fun h => ?_⟩
  have hp := (h.usage _ _ _ _ husage).2.2
  norm_num at hp

end Vigil.Metrics

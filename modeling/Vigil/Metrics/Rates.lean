import Vigil.Lib.Counters
import Vigil.Lib.Meter
import Vigil.Metrics.Disk
import Vigil.Metrics.Net

/-!
# Rates and the devices behind them

`collect_throughput` and `collect_io` subtract totals. Here a total is seen as a
column of a table of devices, the interfaces that are summed or the whole disks,
so that what a report says about the devices depends on nothing but the balance
of two columns.

`rates_of_devices` is about two readings in a row, between which devices may
appear, vanish or start over: what one device loses hides what another gains, as
the total is all that is kept. `traffic_conserved` is about runs of any length
over devices that stay.
-/

namespace Vigil.Metrics

open Vigil.Lib

/-! ## Tables of devices -/

/-- A call of `collect_throughput`: the clock and the interfaces. -/
structure NetTick where
  now : ℚ
  networks : List (String × NetData)

def collectNet (prev : Option NetIoPrev) (t : NetTick) : Throughput × Option NetIoPrev :=
  collectThroughput t.networks prev t.now

/-- The device a row of `/proc/diskstats` is about. -/
def deviceName (line : List Char) : String := String.ofList ((Text.splitWhitespace line).getD 2 [])

def diskDevices (allowed : List String) (raw : String) : List (String × DiskRow) :=
  (Text.lines raw.toList).filterMap fun line =>
    (diskRow allowed line).map fun row => (deviceName line, row)

theorem diskDevices_snd (allowed : List String) (raw : String) :
    (diskDevices allowed raw).map Prod.snd = diskRows allowed raw := by
  rw [diskDevices, List.map_filterMap, diskRows]
  congr 1
  funext line
  cases diskRow allowed line <;> rfl

namespace NetTick

variable (t : NetTick)

def rx : Counters String := .column NetData.received (summed t.networks)

def tx : Counters String := .column NetData.transmitted (summed t.networks)

/-- The interfaces are distinct, and their totals fit a `u64`. -/
structure IsReading : Prop where
  distinct : ((summed t.networks).map Prod.fst).Nodup
  rxFits : t.rx.total ≤ u64Max
  txFits : t.tx.total ≤ u64Max

end NetTick

namespace IoReading

variable (r : IoReading)

/-- The whole disks; none when `/proc/diskstats` cannot be read. -/
def devices : List (String × DiskRow) :=
  match r.diskstats with
  | none => []
  | some raw => diskDevices (wholeDisks r) raw

def readBytes : Counters String := .column (·.readSectors * 512) r.devices

def writeBytes : Counters String := .column (·.writeSectors * 512) r.devices

def readOps : Counters String := .column DiskRow.readOps r.devices

def writeOps : Counters String := .column DiskRow.writeOps r.devices

/-- The read succeeds, the disks are distinct, and their totals fit a `u64`. -/
structure IsReading : Prop where
  read : r.diskstats.isSome
  distinct : (r.devices.map Prod.fst).Nodup
  readBytesFits : r.readBytes.total ≤ u64Max
  writeBytesFits : r.writeBytes.total ≤ u64Max
  readOpsFits : r.readOps.total ≤ u64Max
  writeOpsFits : r.writeOps.total ≤ u64Max

end IoReading

theorem netTotals_eq_total {t : NetTick} (h : t.IsReading) :
    netTotals t.networks = (t.rx.total, t.tx.total) := by
  have hcol : ∀ f : NetData → Nat, ((summed t.networks).map fun n => f n.2).sum =
      (Counters.column f (summed t.networks)).total := by
    intro f
    rw [Counters.total, Counters.column_snd, List.map_map]
    rfl
  rw [netTotals_eq, hcol NetData.received, hcol NetData.transmitted]
  exact congrArg₂ Prod.mk (min_eq_left h.rxFits) (min_eq_left h.txFits)

theorem readDiskstats_eq_total {r : IoReading} (h : r.IsReading) :
    readDiskstats r =
      some ⟨r.readBytes.total, r.writeBytes.total, r.readOps.total, r.writeOps.total⟩ := by
  obtain ⟨raw, hraw⟩ := Option.isSome_iff_exists.mp h.read
  have hdev : r.devices.map Prod.snd = diskRows (wholeDisks r) raw := by
    rw [IoReading.devices, hraw]
    exact diskDevices_snd _ _
  have heq : exactTotals (diskRows (wholeDisks r) raw) =
      ⟨r.readBytes.total, r.writeBytes.total, r.readOps.total, r.writeOps.total⟩ := by
    simp only [exactTotals, IoReading.readBytes, IoReading.writeBytes, IoReading.readOps,
      IoReading.writeOps, Counters.total, Counters.column_snd, hdev, List.sum_map_mul_right]
  rw [readDiskstats_eq_exact hraw, heq]
  rw [heq]
  exact ⟨h.readBytesFits, h.writeBytesFits, h.readOpsFits, h.writeOpsFits⟩

/-! ## A report against the reading before -/

def NetTick.baseline (t : NetTick) : NetIoPrev := ⟨t.now, t.rx.total, t.tx.total⟩

def IoReading.baseline (r : IoReading) : DiskIoPrev :=
  ⟨r.now, ⟨r.readBytes.total, r.writeBytes.total, r.readOps.total, r.writeOps.total⟩⟩

theorem collectNet_snd {t : NetTick} (h : t.IsReading) (prev : Option NetIoPrev) :
    (collectNet prev t).2 = some t.baseline := by
  rw [collectNet, collectThroughput_snd, netTotals_eq_total h]
  rfl

theorem collectIo_baseline {r : IoReading} (h : r.IsReading) (prev : Option DiskIoPrev) :
    (collectIo prev r).2 = some r.baseline := by
  rw [collectIo_snd, readDiskstats_eq_total h]
  rfl

theorem collectNet_fst {before t : NetTick} (h : t.IsReading) (ht : before.now < t.now) :
    (collectNet (some before.baseline) t).1 =
      ⟨perSec (t.rx.total - before.rx.total) (t.now - before.now),
        perSec (t.tx.total - before.tx.total) (t.now - before.now)⟩ := by
  have hpos : 0 < t.now - before.now := sub_pos.mpr ht
  rw [collectNet, collectThroughput, netTotals_eq_total h]
  dsimp only [NetTick.baseline]
  rw [max_eq_left hpos.le, if_neg hpos.not_ge]
  rfl

theorem collectIo_fst {before r : IoReading} (h : r.IsReading) (ht : before.now < r.now) :
    (collectIo (some before.baseline) r).1 =
      ⟨perSec (r.readBytes.total - before.readBytes.total) (r.now - before.now),
        perSec (r.writeBytes.total - before.writeBytes.total) (r.now - before.now),
        perSec (r.readOps.total - before.readOps.total) (r.now - before.now),
        perSec (r.writeOps.total - before.writeOps.total) (r.now - before.now)⟩ := by
  have hpos : 0 < r.now - before.now := sub_pos.mpr ht
  rw [collectIo, readDiskstats_eq_total h]
  dsimp only [IoReading.baseline]
  rw [max_eq_left hpos.le, if_neg hpos.not_ge]

/-! ## Two readings in a row -/

/-- What a reported rate says about the devices of two readings. -/
structure IsRate (rate : Nat) (prev cur : Counters String) (elapsed : ℚ) : Prop where
  /-- it is what the devices gained less what they lost, over the time, at most `u64::MAX` -/
  balance : (rate : ℤ) = min
    (roundHalfAway ((prev.gained cur - cur.gained prev : Nat) / elapsed)) u64Max
  /-- it is at most the sum of the devices' own rates -/
  le : (rate : ℤ) ≤ roundHalfAway (prev.gained cur / elapsed)
  /-- it is that sum when no device vanished or started over and the sum fits -/
  eq_of_keeps : prev.Keeps cur → roundHalfAway (prev.gained cur / elapsed) ≤ u64Max →
    (rate : ℤ) = roundHalfAway (prev.gained cur / elapsed)

theorem isRate_perSec {prev cur : Counters String} {elapsed : ℚ} (hp : prev.Distinct)
    (hc : cur.Distinct) (he : 0 < elapsed) :
    IsRate (perSec (cur.total - prev.total) elapsed) prev cur elapsed := by
  have hbal : (perSec (cur.total - prev.total) elapsed : ℤ) = min
      (roundHalfAway ((prev.gained cur - cur.gained prev : Nat) / elapsed)) u64Max := by
    have hn : 0 ≤ roundHalfAway ((prev.gained cur - cur.gained prev : Nat) / elapsed) :=
      roundHalfAway_nonneg (by positivity)
    rw [Counters.total_sub hp hc, perSec, intToU64]
    omega
  refine ⟨hbal, hbal.trans_le ((min_le_left _ _).trans (roundHalfAway_mono ?_)), fun hk hf => ?_⟩
  · exact div_le_div_of_nonneg_right (Nat.cast_le.mpr (Nat.sub_le _ _)) he.le
  · rw [hbal, hk.lost, Nat.sub_zero, min_eq_left hf]

/-- **Aggregate rates and the devices.** Of two readings a positive time apart, each rate of the
second is what the devices of that column gained less what they lost, and so at most the sum of
their own rates; it is that sum when nothing was lost and it fits. -/
theorem rates_of_devices :
    (∀ (before t : NetTick) (prev : Option NetIoPrev), before.IsReading → t.IsReading →
      before.now < t.now →
        let out := (collectNet (collectNet prev before).2 t).1
        IsRate out.rxBytesPerSec before.rx t.rx (t.now - before.now) ∧
        IsRate out.txBytesPerSec before.tx t.tx (t.now - before.now)) ∧
    (∀ (before r : IoReading) (prev : Option DiskIoPrev), before.IsReading → r.IsReading →
      before.now < r.now →
        let out := (collectIo (collectIo prev before).2 r).1
        IsRate out.readBytesPerSec before.readBytes r.readBytes (r.now - before.now) ∧
        IsRate out.writeBytesPerSec before.writeBytes r.writeBytes (r.now - before.now) ∧
        IsRate out.readIops before.readOps r.readOps (r.now - before.now) ∧
        IsRate out.writeIops before.writeOps r.writeOps (r.now - before.now)) := by
  refine ⟨?_, ?_⟩
  · intro before t prev hb h ht
    have hrate : ∀ f : NetData → Nat,
        let prev := Counters.column f (summed before.networks)
        let cur := Counters.column f (summed t.networks)
        IsRate (perSec (cur.total - prev.total) (t.now - before.now)) prev cur
          (t.now - before.now) :=
      fun _ => isRate_perSec (Counters.distinct_column hb.distinct)
        (Counters.distinct_column h.distinct) (sub_pos.mpr ht)
    rw [collectNet_snd hb, collectNet_fst h ht]
    exact ⟨hrate _, hrate _⟩
  · intro before r prev hb h ht
    have hrate : ∀ f : DiskRow → Nat,
        let prev := Counters.column f before.devices
        let cur := Counters.column f r.devices
        IsRate (perSec (cur.total - prev.total) (r.now - before.now)) prev cur
          (r.now - before.now) :=
      fun _ => isRate_perSec (Counters.distinct_column hb.distinct)
        (Counters.distinct_column h.distinct) (sub_pos.mpr ht)
    rw [collectIo_baseline hb, collectIo_fst h ht]
    exact ⟨hrate _, hrate _, hrate _, hrate _⟩

def received (name : String) (n : Nat) : String × NetData := (name, ⟨n, 0, 0, 0, 0, 0⟩)

def twoInterfaces : NetTick := ⟨0, [received "eth0" 1000, received "wlan0" 1000]⟩

def wlanGone : NetTick := ⟨1, [received "eth0" 2000]⟩

/-- `eth0` receives 1000 bytes in the second in which `wlan0` vanishes with as many: nothing is
reported. -/
theorem vanished_device_hides_traffic :
    twoInterfaces.IsReading ∧ wlanGone.IsReading ∧ twoInterfaces.now < wlanGone.now ∧
      (collectNet (collectNet none twoInterfaces).2 wlanGone).1.rxBytesPerSec = 0 ∧
      roundHalfAway (twoInterfaces.rx.gained wlanGone.rx / (wlanGone.now - twoInterfaces.now)) =
        1000 := by
  refine ⟨⟨by decide, by decide, by decide⟩, ⟨by decide, by decide, by decide⟩, by decide, ?_, ?_⟩
  · decide +kernel
  · decide +kernel

def wlanStays : NetTick := ⟨1, [received "eth0" 2000, received "wlan0" 1500]⟩

/-- `sda` with so many sectors read and written. -/
def sdaAt (now : ℚ) (sectors : String) : IoReading := ⟨now, some (sdaRow sectors), some ["sda"]⟩

theorem sdaAt_isReading (now : ℚ) {sectors : String} {n : Nat}
    (h : (sdaAt now sectors).devices = [("sda", ⟨10, n, 20, n⟩)]) (hn : n ≤ 1000) :
    (sdaAt now sectors).IsReading := by
  refine ⟨rfl, ?_, ?_, ?_, ?_, ?_⟩ <;>
    simp [IoReading.readBytes, IoReading.writeBytes, IoReading.readOps, IoReading.writeOps, h,
      Counters.total, u64Max] <;> omega

theorem sdaAt_devices :
    (sdaAt 0 "100").devices = [("sda", ⟨10, 100, 20, 100⟩)] ∧
      (sdaAt 2 "200").devices = [("sda", ⟨10, 200, 20, 200⟩)] := by
  constructor <;> with_unfolding_all rfl

theorem rates_of_devices_twoInterfaces :
    IsRate 1500 twoInterfaces.rx wlanStays.rx 1 ∧
      IsRate 25600 (sdaAt 0 "100").readBytes (sdaAt 2 "200").readBytes 2 := by
  have hnet := (rates_of_devices.1 twoInterfaces wlanStays none
    ⟨by decide, by decide, by decide⟩ ⟨by decide, by decide, by decide⟩ (by decide)).1
  have hio := (rates_of_devices.2 (sdaAt 0 "100") (sdaAt 2 "200") none
    (sdaAt_isReading 0 sdaAt_devices.1 (by decide)) (sdaAt_isReading 2 sdaAt_devices.2 (by decide))
    (by decide)).1
  have hrx : (collectNet (collectNet none twoInterfaces).2 wlanStays).1.rxBytesPerSec = 1500 := by
    decide +kernel
  have hread : (collectIo (collectIo none (sdaAt 0 "100")).2
      (sdaAt 2 "200")).1.readBytesPerSec = 25600 := by
    with_unfolding_all rfl
  rw [hrx] at hnet
  rw [hread] at hio
  exact ⟨by simpa [twoInterfaces, wlanStays] using hnet, by simpa [sdaAt] using hio⟩

/-! ## Runs -/

/-- A run of `n` ticks after the first: increasing times, good readings, and in every column no
device vanishes or counts less. -/
structure IsRun {τ : Type} (now : τ → ℚ) (IsReading : τ → Prop)
    (columns : List (τ → Counters String)) (ticks : Nat → τ) (n : Nat) : Prop where
  times : ∀ i < n, now (ticks i) < now (ticks (i + 1))
  readings : ∀ i ≤ n, IsReading (ticks i)
  keeps : ∀ i < n, ∀ c ∈ columns, (c (ticks i)).Keeps (c (ticks (i + 1)))

/-- What the reported rates of a run say about a column of its devices. -/
structure Conserved (now : Nat → ℚ) (column : Nat → Counters String) (reported : Nat → Nat)
    (n : Nat) : Prop where
  /-- no traffic is invented -/
  le : area now (fun i => reported i) n - ((column n).total - (column 0).total) ≤
    (now n - now 0) / 2
  /-- and none is lost while the rates fit a `u64` -/
  abs_le : (∀ i < n, roundHalfAway
      (rate (column (i + 1)).total (column i).total (now (i + 1) - now i)) ≤ u64Max) →
    |area now (fun i => reported i) n - ((column n).total - (column 0).total)| ≤
      (now n - now 0) / 2

theorem IsRun.total_le {τ : Type} {now : τ → ℚ} {IsReading : τ → Prop}
    {columns : List (τ → Counters String)} {ticks : Nat → τ} {n : Nat}
    (h : IsRun now IsReading columns ticks n) {c : τ → Counters String} (hc : c ∈ columns)
    (hd : ∀ {t}, IsReading t → (c t).Distinct) :
    ∀ i < n, (c (ticks i)).total ≤ (c (ticks (i + 1))).total :=
  fun i hi => (h.keeps i hi c hc).total_le (hd (h.readings i hi.le)) (hd (h.readings (i + 1) hi))

theorem perSec_sub_le {last cur : Nat} {elapsed : ℚ} (hle : last ≤ cur) (he : 0 < elapsed) :
    (perSec (cur - last) elapsed : ℚ) - rate cur last elapsed ≤ 1 / 2 := by
  have hcast : (perSec (cur - last) elapsed : ℤ) ≤ roundHalfAway (rate cur last elapsed) := by
    have := roundHalfAway_nonneg (rate_nonneg hle he)
    rw [perSec, Nat.cast_sub hle, intToU64, ← rate]
    omega
  have hround := (abs_le.mp (abs_roundHalfAway_sub_le (rate cur last elapsed))).2
  have : ((perSec (cur - last) elapsed : ℤ) : ℚ) ≤ roundHalfAway (rate cur last elapsed) :=
    Int.cast_le.mpr hcast
  rw [Int.cast_natCast] at this
  linarith

theorem abs_perSec_sub_le {last cur : Nat} {elapsed : ℚ} (hle : last ≤ cur) (he : 0 < elapsed)
    (hf : roundHalfAway (rate cur last elapsed) ≤ u64Max) :
    |(perSec (cur - last) elapsed : ℚ) - rate cur last elapsed| ≤ 1 / 2 := by
  have heq := (perSec_eq_iff hle he).mpr hf
  rw [← Int.cast_natCast, heq]
  exact abs_roundHalfAway_sub_le _

/-- Rates against the reading before conserve a column that does not fall. -/
theorem conserved {now : Nat → ℚ} {column : Nat → Counters String} {reported : Nat → Nat} {n : Nat}
    (ht : ∀ i < n, now i < now (i + 1))
    (hle : ∀ i < n, (column i).total ≤ (column (i + 1)).total)
    (hr : ∀ i < n, reported (i + 1) =
      perSec ((column (i + 1)).total - (column i).total) (now (i + 1) - now i)) :
    Conserved now column reported n where
  le := by
    refine area_sub_le (fun i => ((column i).total : ℚ)) _ ht fun i hi => ?_
    rw [hr i hi]
    exact perSec_sub_le (hle i hi) (sub_pos.mpr (ht i hi))
  abs_le hf := by
    refine abs_area_sub_le (fun i => ((column i).total : ℚ)) _ ht fun i hi => ?_
    rw [hr i hi]
    exact abs_perSec_sub_le (hle i hi) (sub_pos.mpr (ht i hi)) (hf i hi)

theorem conserved_net {ticks : Nat → NetTick} {n : Nat}
    (h : IsRun NetTick.now NetTick.IsReading [NetTick.rx, NetTick.tx] ticks n) :
    let out := report collectNet ticks
    let now i := (ticks i).now
    Conserved now (fun i => (ticks i).rx) (fun i => (out i).rxBytesPerSec) n ∧
      Conserved now (fun i => (ticks i).tx) (fun i => (out i).txBytesPerSec) n := by
  intro out now
  have hout : ∀ i < n, out (i + 1) = _ := fun i hi =>
    (report_succ (collectNet_snd (h.readings i hi.le))).trans
      (collectNet_fst (h.readings (i + 1) hi) (h.times i hi))
  have hd : ∀ (f : NetData → Nat) {t : NetTick}, t.IsReading →
      (Counters.column f (summed t.networks)).Distinct :=
    fun _ _ h => Counters.distinct_column h.distinct
  refine ⟨conserved h.times (h.total_le (by simp) (hd _)) ?_,
    conserved h.times (h.total_le (by simp) (hd _)) ?_⟩
  · exact fun i hi => congrArg Throughput.rxBytesPerSec (hout i hi)
  · exact fun i hi => congrArg Throughput.txBytesPerSec (hout i hi)

theorem conserved_io {ticks : Nat → IoReading} {n : Nat}
    (h : IsRun IoReading.now IoReading.IsReading [IoReading.readBytes, IoReading.writeBytes,
      IoReading.readOps, IoReading.writeOps] ticks n) :
    let out := report collectIo ticks
    let now i := (ticks i).now
    Conserved now (fun i => (ticks i).readBytes) (fun i => (out i).readBytesPerSec) n ∧
      Conserved now (fun i => (ticks i).writeBytes) (fun i => (out i).writeBytesPerSec) n ∧
      Conserved now (fun i => (ticks i).readOps) (fun i => (out i).readIops) n ∧
      Conserved now (fun i => (ticks i).writeOps) (fun i => (out i).writeIops) n := by
  intro out now
  have hout : ∀ i < n, out (i + 1) = _ := fun i hi =>
    (report_succ (collectIo_baseline (h.readings i hi.le))).trans
      (collectIo_fst (h.readings (i + 1) hi) (h.times i hi))
  have hd : ∀ (f : DiskRow → Nat) {r : IoReading}, r.IsReading →
      (Counters.column f r.devices).Distinct :=
    fun _ _ h => Counters.distinct_column h.distinct
  refine ⟨conserved h.times (h.total_le (by simp) (hd _)) ?_,
    conserved h.times (h.total_le (by simp) (hd _)) ?_,
    conserved h.times (h.total_le (by simp) (hd _)) ?_,
    conserved h.times (h.total_le (by simp) (hd _)) ?_⟩
  · exact fun i hi => congrArg DiskIo.readBytesPerSec (hout i hi)
  · exact fun i hi => congrArg DiskIo.writeBytesPerSec (hout i hi)
  · exact fun i hi => congrArg DiskIo.readIops (hout i hi)
  · exact fun i hi => congrArg DiskIo.writeIops (hout i hi)

/-- **Conservation of traffic.** Over a run of any length from an empty baseline, the first report
is zero, and the rates integrate to the growth of each column. -/
theorem traffic_conserved :
    (∀ (ticks : Nat → NetTick) (n : Nat),
      IsRun NetTick.now NetTick.IsReading [NetTick.rx, NetTick.tx] ticks n →
        let out := report collectNet ticks
        let now i := (ticks i).now
        out 0 = .default ∧
        Conserved now (fun i => (ticks i).rx) (fun i => (out i).rxBytesPerSec) n ∧
        Conserved now (fun i => (ticks i).tx) (fun i => (out i).txBytesPerSec) n) ∧
    (∀ (ticks : Nat → IoReading) (n : Nat),
      IsRun IoReading.now IoReading.IsReading [IoReading.readBytes, IoReading.writeBytes,
        IoReading.readOps, IoReading.writeOps] ticks n →
        let out := report collectIo ticks
        let now i := (ticks i).now
        out 0 = .default ∧
        Conserved now (fun i => (ticks i).readBytes) (fun i => (out i).readBytesPerSec) n ∧
        Conserved now (fun i => (ticks i).writeBytes) (fun i => (out i).writeBytesPerSec) n ∧
        Conserved now (fun i => (ticks i).readOps) (fun i => (out i).readIops) n ∧
        Conserved now (fun i => (ticks i).writeOps) (fun i => (out i).writeIops) n) := by
  refine ⟨fun ticks n h => ⟨rfl, conserved_net h⟩, fun ticks n h => ⟨?_, conserved_io h⟩⟩
  show (collectIo none (ticks 0)).1 = .default
  unfold collectIo
  split <;> rfl

/-- One interface that receives all a `u64` holds in half a second. -/
def burst (i : Nat) : NetTick := ⟨i / 2, [received "eth0" (i * u64Max)]⟩

/-- The reported rate stops at `u64::MAX`, and half the traffic is lost. -/
theorem burst_loses_traffic :
    IsRun NetTick.now NetTick.IsReading [NetTick.rx, NetTick.tx] burst 1 ∧
      ¬ |area (fun i => (burst i).now) (fun i => (report collectNet burst i).rxBytesPerSec) 1 -
        ((burst 1).rx.total - (burst 0).rx.total)| ≤ ((burst 1).now - (burst 0).now) / 2 := by
  have hread : ∀ i ≤ 1, (burst i).IsReading := by
    intro i hi
    rcases Nat.le_one_iff_eq_zero_or_eq_one.mp hi with rfl | rfl <;>
      exact ⟨by decide, by decide, by decide⟩
  refine ⟨⟨?_, hread, ?_⟩, ?_⟩
  · intro i hi
    rw [Nat.lt_one_iff.mp hi]
    norm_num [burst]
  · intro i hi
    rw [Nat.lt_one_iff.mp hi]
    simp only [List.forall_mem_cons, List.not_mem_nil, false_imp_iff, implies_true, and_true]
    exact ⟨by unfold Counters.Keeps; decide, by unfold Counters.Keeps; decide⟩
  · decide +kernel

def followedBy {τ : Type} (a b : τ) : Nat → τ
  | 0 => a
  | _ + 1 => b

theorem traffic_conserved_pairs :
    Conserved (fun i => (followedBy twoInterfaces wlanStays i).now)
      (fun i => (followedBy twoInterfaces wlanStays i).rx)
      (fun i => (report collectNet (followedBy twoInterfaces wlanStays) i).rxBytesPerSec) 1 ∧
    Conserved (fun i => (followedBy (sdaAt 0 "100") (sdaAt 2 "200") i).now)
      (fun i => (followedBy (sdaAt 0 "100") (sdaAt 2 "200") i).readBytes)
      (fun i => (report collectIo (followedBy (sdaAt 0 "100") (sdaAt 2 "200")) i).readBytesPerSec)
      1 := by
  have hrun : ∀ {τ : Type} {now : τ → ℚ} {IsReading : τ → Prop}
      {columns : List (τ → Counters String)} {a b : τ}, now a < now b → IsReading a → IsReading b →
      (∀ c ∈ columns, (c a).Keeps (c b)) → IsRun now IsReading columns (followedBy a b) 1 := by
    intro τ now IsReading columns a b ht ha hb hk
    refine ⟨fun i hi => ?_, fun i hi => ?_, fun i hi => ?_⟩
    · rwa [Nat.lt_one_iff.mp hi]
    · rcases Nat.le_one_iff_eq_zero_or_eq_one.mp hi with rfl | rfl
      · exact ha
      · exact hb
    · rwa [Nat.lt_one_iff.mp hi]
  refine ⟨(traffic_conserved.1 _ 1 (hrun (by decide) ?_ ?_ ?_)).2.1,
    (traffic_conserved.2 _ 1 (hrun (by decide) (sdaAt_isReading 0 sdaAt_devices.1 (by decide))
      (sdaAt_isReading 2 sdaAt_devices.2 (by decide)) ?_)).2.1⟩
  · exact ⟨by decide, by decide, by decide⟩
  · exact ⟨by decide, by decide, by decide⟩
  · simp only [List.forall_mem_cons, List.not_mem_nil, false_imp_iff, implies_true, and_true]
    exact ⟨by unfold Counters.Keeps; decide, by unfold Counters.Keeps; decide⟩
  · simp [Counters.Keeps, Counters.count, Counters.column, IoReading.readBytes,
      IoReading.writeBytes, IoReading.readOps, IoReading.writeOps, sdaAt_devices.1,
      sdaAt_devices.2]

end Vigil.Metrics

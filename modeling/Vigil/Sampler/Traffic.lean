import Vigil.Sampler.Paced
import Vigil.Sampler.Rates

/-!
# What the served rates add up to

The refreshes of one sampler state are its life. `published_told` says that a
life is published as a whole: each of its refreshes with the snapshot that the
collectors make of the readings up to it. With the timer of `samplerClock` the
readings are taken at increasing times, and `served_traffic` follows: between a
start or a rebuild of the state and the next failure, the rates that readers are
served integrate to the traffic of the host.
-/

namespace Vigil

open Vigil.Lib Vigil.Metrics SamplerState

/-! ## Readings by their place -/

/-- What refresh `k` of a life read. -/
def readingAt (life : List Refresh) (k : Nat) : Reading :=
  (life[k]?.map Refresh.reading).getD .quiet

theorem readingAt_snoc_lt {life : List Refresh} {k : Nat} (hk : k < life.length) (x : Refresh) :
    readingAt (life ++ [x]) k = readingAt life k := by
  rw [readingAt, List.getElem?_append_left hk, readingAt]

theorem readingAt_snoc (life : List Refresh) (x : Refresh) :
    readingAt (life ++ [x]) life.length = x.reading := by
  simp [readingAt]

section Congruence

variable (g : Statics) (created : Reading) {rs rs' : Nat → Reading} {k : Nat}

theorem afterRefreshes_congr (h : ∀ i < k, rs i = rs' i) :
    afterRefreshes g created rs k = afterRefreshes g created rs' k := by
  induction k with
  | zero => rfl
  | succ k ih =>
    rw [afterRefreshes, afterRefreshes, ih fun i hi => h i (Nat.lt_succ_of_lt hi),
      h k (Nat.lt_succ_self k)]

theorem snapshotOf_congr (h : ∀ i ≤ k, rs i = rs' i) :
    snapshotOf g created rs k = snapshotOf g created rs' k := by
  rw [snapshotOf, snapshotOf, afterRefreshes_congr g created fun i hi => h i hi.le, h k le_rfl]

end Congruence

/-! ## Lives are published -/

/-- The first `n` refreshes of a life have been published, each with the snapshot of a state that
was created from `created` under the statics `g`. -/
def Told (ps : List Publication) (g : Statics) (created : Reading) (life : List Refresh)
    (n : Nat) : Prop :=
  ∀ k < n, ⟨snapshotOf g created (readingAt life) k, life.take (k + 1)⟩ ∈ ps

namespace Told

variable {ps : List Publication} {g : Statics} {created : Reading} {life : List Refresh} {n : Nat}

theorem mono {ps' : List Publication} (h : Told ps g created life n) (hps : ∀ p ∈ ps, p ∈ ps') :
    Told ps' g created life n :=
  fun k hk => hps _ (h k hk)

/-- One more refresh changes nothing about the earlier ones. -/
theorem snoc (h : Told ps g created life life.length) (x : Refresh) :
    Told ps g created (life ++ [x]) life.length := by
  intro k hk
  have hsnap : snapshotOf g created (readingAt (life ++ [x])) k =
      snapshotOf g created (readingAt life) k :=
    snapshotOf_congr g created fun i hi => readingAt_snoc_lt (hi.trans_lt hk) x
  have htake : (life ++ [x]).take (k + 1) = life.take (k + 1) :=
    List.take_append_of_le_length hk
  rw [hsnap, htake]
  exact h k hk

theorem publish (h : Told ps g created life n) (hn : life.length = n + 1) :
    Told (ps ++ [⟨snapshotOf g created (readingAt life) n, life⟩]) g created life life.length := by
  intro k hk
  rcases Nat.lt_or_eq_of_le (Nat.le_of_lt_succ (hn ▸ hk)) with hk | rfl
  · exact List.mem_append_left _ (h k hk)
  · rw [List.take_of_length_le hn.le]
    exact List.mem_append_right _ (List.mem_singleton_self _)

end Told

namespace Sampler

variable {strategy : PanicStrategy} {ser : ToVec} {seed first : Reading} {s s' : Sampler}
variable {C : Reading → Prop}

/-- The task holds what the refreshes of its life make of the state, and all of them but the one it
has yet to publish are published. -/
def TaskTold (C : Reading → Prop) (s : Sampler) : Prop :=
  match s.task with
  | .sleeping (some st) | .refreshing st => ∃ g created, C created ∧
    afterRefreshes g created (readingAt s.life) s.life.length = (st, s.statics) ∧
    Told s.published g created s.life s.life.length
  | .joining (some (snap, st)) => ∃ g created n, C created ∧ s.life.length = n + 1 ∧
    afterRefreshes g created (readingAt s.life) s.life.length = (st, s.statics) ∧
    snap = snapshotOf g created (readingAt s.life) n ∧ Told s.published g created s.life n
  | .sleeping none | .joining none | .stopped | .panicked => True

/-- `C` holds of what the states are created from. -/
structure Tells (C : Reading → Prop) (s : Sampler) : Prop where
  task : TaskTold C s
  published : ∀ p ∈ s.published, ∃ g created, C created ∧
    Told s.published g created p.life p.life.length

theorem afterRefreshes_runRefresh {g : Statics} {created : Reading} {owned : SamplerState}
    (h : afterRefreshes g created (readingAt s.life) s.life.length = (owned, s.statics))
    (r : Reading) :
    afterRefreshes g created (readingAt (s.life ++ [⟨s.statics, r⟩])) (s.life.length + 1) =
        (owned.refresh s.statics r).2 ∧
      snapshotOf g created (readingAt (s.life ++ [⟨s.statics, r⟩])) s.life.length =
        (owned.refresh s.statics r).1 := by
  have hold : afterRefreshes g created (readingAt (s.life ++ [⟨s.statics, r⟩])) s.life.length =
      (owned, s.statics) :=
    (afterRefreshes_congr g created fun i hi => readingAt_snoc_lt hi _).trans h
  rw [afterRefreshes, snapshotOf, hold, readingAt_snoc]
  exact ⟨rfl, rfl⟩

theorem tells_start (hC : C seed) : (start ser seed first).Tells C := by
  have hempty : Told [] .uninit seed [] 0 := fun k hk => absurd hk (Nat.not_lt_zero k)
  have hfirst := (hempty.snoc ⟨.uninit, first⟩).publish rfl
  exact ⟨⟨.uninit, seed, hC, rfl, hfirst⟩, fun p hp =>
    ⟨.uninit, seed, hC, List.mem_singleton.mp hp ▸ hfirst⟩⟩

theorem tells_step {e : SamplerEvent} (hC : ∀ r, e = .rebuilt r → C r) (h : s.Tells C)
    (hs : s.step strategy ser e = some s') : s'.Tells C := by
  have ht := h.task
  unfold TaskTold at ht
  cases (step_moves hs).2 with
  | wake st htask =>
    rw [htask] at ht
    exact ⟨ht, h.published⟩
  | refreshed owned r htask =>
    rw [htask] at ht
    obtain ⟨g, created, hc, hst, htold⟩ := ht
    obtain ⟨hafter, hsnap⟩ := afterRefreshes_runRefresh hst r
    have hlen : (s.life ++ [(⟨s.statics, r⟩ : Refresh)]).length = s.life.length + 1 :=
      List.length_append
    refine ⟨⟨g, created, s.life.length, hc, hlen, ?_, hsnap.symm, htold.snoc _⟩, h.published⟩
    exact (congrArg _ hlen).trans hafter
  | joined snap st htask =>
    rw [htask] at ht
    obtain ⟨g, created, n, hc, hlen, hst, rfl, htold⟩ := ht
    have htold' := htold.publish hlen
    refine ⟨⟨g, created, hc, hst, htold'⟩, fun p hp => ?_⟩
    rcases List.mem_append.mp hp with hp | hp
    · obtain ⟨g', created', hc', hp⟩ := h.published p hp
      exact ⟨g', created', hc', hp.mono fun q hq => List.mem_append_left _ hq⟩
    · rw [List.mem_singleton.mp hp]
      exact ⟨g, created, hc, htold'⟩
  | rebuilt r _ =>
    exact ⟨⟨s.statics, r, hC r rfl, rfl, fun k hk => absurd hk (Nat.not_lt_zero k)⟩, h.published⟩
  | expect htask | rebuildPanics htask =>
    cases strategy with
    | unwind => exact ⟨trivial, h.published⟩
    | abort =>
      refine ⟨?_, h.published⟩
      simp only [TaskTold, panic, htask]
  | failed | stop => exact ⟨trivial, h.published⟩
  | abort | read => exact ⟨h.task, h.published⟩

end Sampler

/-- **Every life is published as a whole.** -/
theorem published_told {strategy : PanicStrategy} {ser : ToVec} {seed first : Reading}
    {es : List SamplerEvent} {s : Sampler} (hr : (sampler strategy ser seed first).Reaches es s) :
    ∀ p ∈ s.published, ∃ g created, (created = seed ∨ .rebuilt created ∈ es) ∧
      Told s.published g created p.life p.life.length := by
  have hrun := Machine.run_preserves_of (M := sampler strategy ser seed first)
    (C := fun e => ∀ r, e = .rebuilt r → r = seed ∨ .rebuilt r ∈ es)
    (P := Sampler.Tells fun created => created = seed ∨ .rebuilt created ∈ es)
    (fun _ _ _ hC h hs => Sampler.tells_step hC h hs) (fun e he r hr => .inr (hr ▸ he)) hr
    (Sampler.tells_start (.inl rfl))
  exact hrun.published

/-! ## Traffic -/

/-- Good readings, between which no device of a column vanishes or counts less. -/
structure Steady {τ : Type} (IsReading : τ → Prop) (columns : List (τ → Counters String))
    (ticks : Nat → τ) (n : Nat) : Prop where
  readings : ∀ i ≤ n, IsReading (ticks i)
  keeps : ∀ i < n, ∀ c ∈ columns, (c (ticks i)).Keeps (c (ticks (i + 1)))

theorem Steady.isRun {τ : Type} {IsReading : τ → Prop} {columns : List (τ → Counters String)}
    {ticks : Nat → τ} {n : Nat} (h : Steady IsReading columns ticks n) {now : τ → ℚ}
    (ht : ∀ i < n, now (ticks i) < now (ticks (i + 1))) : IsRun now IsReading columns ticks n :=
  ⟨ht, h.readings, h.keeps⟩

/-- The spacing of a list, by the places of the readings. -/
theorem clock_spaced {clock : Reading → ℚ} {p : ℚ} {life : List Refresh}
    (h : Spaced p (life.map fun x => clock x.reading)) {k : Nat} (hk : k + 1 < life.length) :
    clock (readingAt life k) + p ≤ clock (readingAt life (k + 1)) := by
  have hat : ∀ {i}, (hi : i < life.length) → readingAt life i = (life[i]).reading := fun hi => by
    rw [readingAt, List.getElem?_eq_getElem hi]
    rfl
  have hpair := List.pairwise_iff_getElem.mp h k (k + 1) (by simp; omega) (by simpa using hk)
    (Nat.lt_succ_self k)
  rw [List.getElem_map, List.getElem_map] at hpair
  rwa [hat hk, hat (Nat.lt_of_succ_lt hk)]

/-- The network rates that are served conserve the traffic of the interfaces. -/
structure NetServed (net : Nat → NetTick) (out : Nat → Throughput) (n : Nat) : Prop where
  rx : Conserved (fun i => (net i).now) (fun i => (net i).rx) (fun i => (out i).rxBytesPerSec) n
  tx : Conserved (fun i => (net i).now) (fun i => (net i).tx) (fun i => (out i).txBytesPerSec) n

/-- The disk rates that are served conserve the traffic of the disks. -/
structure IoServed (io : Nat → IoReading) (out : Nat → DiskIo) (n : Nat) : Prop where
  readBytes : Conserved (fun i => (io i).now) (fun i => (io i).readBytes)
    (fun i => (out i).readBytesPerSec) n
  writeBytes : Conserved (fun i => (io i).now) (fun i => (io i).writeBytes)
    (fun i => (out i).writeBytesPerSec) n
  readOps : Conserved (fun i => (io i).now) (fun i => (io i).readOps) (fun i => (out i).readIops) n
  writeOps : Conserved (fun i => (io i).now) (fun i => (io i).writeOps)
    (fun i => (out i).writeIops) n

/-- **The served rates conserve traffic.** Every publication of a run with timers belongs to a life
whose snapshots have all been published. While the devices that the state sees are steady, the rates
of these snapshots integrate to what the devices have carried, within half the time. That the clock
has moved on between two readings is no assumption: the timer sees to it. -/
theorem served_traffic {strategy : PanicStrategy} {ser : ToVec} {interval : Duration} {secs : ℚ}
    {seed first : Reading} (hi : Sampler.intervalOf secs = some interval)
    (hnet : first.netNow ≤ 0) (hdisk : first.diskIo.now ≤ 0) {es : List (ℚ × SamplerEvent)}
    {s : Timed Sampler TickTimes}
    (hr : (timedSampler strategy ser interval seed first).Reaches es s) :
    ∀ p ∈ s.state.published, ∃ (created : Reading) (snaps : Nat → Snapshot),
      (created = seed ∨ ∃ t, (t, .rebuilt created) ∈ es) ∧
      (∀ k < p.life.length, ⟨snaps k, p.life.take (k + 1)⟩ ∈ s.state.published) ∧
      ∀ n < p.life.length,
        let net := netTicks created (readingAt p.life)
        let io k := (readingAt p.life k).diskIo
        (Steady NetTick.IsReading [NetTick.rx, NetTick.tx] net n →
          NetServed net (fun k => (snaps k).network) n) ∧
        (Steady IoReading.IsReading [IoReading.readBytes, IoReading.writeBytes, IoReading.readOps,
            IoReading.writeOps] io n →
          IoServed io (fun k => (snaps k).diskIo) n) := by
  intro p hp
  obtain ⟨g, created, hcr, htold⟩ := published_told hr.untimed p hp
  have hpos : 0 < interval.secs := by
    have hmax : max secs (1 / 10) = interval.secs := F64.fin.inj (fromSecsF64_secs hi)
    exact hmax ▸ lt_max_of_lt_right (by norm_num)
  have hclock : ∀ {clock : Reading → ℚ}, Sampler.IsClock clock → clock first ≤ 0 → ∀ k,
      k + 1 < p.life.length → clock (readingAt p.life k) < clock (readingAt p.life (k + 1)) := by
    intro clock hc h0 k hk
    have := clock_spaced ((Sampler.beats_of_reaches hc h0 hr).published p hp) hk
    linarith
  refine ⟨created, snapshotOf g created (readingAt p.life), ?_, htold, fun n hn => ⟨fun h => ?_,
    fun h => ?_⟩⟩
  · rcases hcr with rfl | hcr
    · exact .inl rfl
    · obtain ⟨⟨t, e⟩, he, rfl⟩ := List.mem_map.mp hcr
      exact .inr ⟨t, he⟩
  · rw [show (fun k => (snapshotOf g created (readingAt p.life) k).network) = _ from
      funext (network_eq_report g created (readingAt p.life))]
    obtain ⟨hrx, htx⟩ := conserved_net (h.isRun fun i hi =>
      hclock Sampler.isClock_net hnet i ((Nat.succ_le_of_lt hi).trans_lt hn))
    exact ⟨hrx, htx⟩
  · rw [show (fun k => (snapshotOf g created (readingAt p.life) k).diskIo) = _ from
      funext (diskIo_eq_report g created (readingAt p.life))]
    obtain ⟨hrb, hwb, hro, hwo⟩ := conserved_io (h.isRun fun i hi =>
      hclock Sampler.isClock_disk hdisk i ((Nat.succ_le_of_lt hi).trans_lt hn))
    exact ⟨hrb, hwb, hro, hwo⟩

/-- A host on which `eth0` has received `n` bytes by the time `t`. -/
def receivingAt (t : ℚ) (n : Nat) : Reading :=
  { quietAt t with interfaces := ["eth0"], netData := fun _ => ⟨n, 0, 0, 0, 0, 0⟩ }

def oneTick : List (ℚ × SamplerEvent) :=
  [(1, .wake), (5 / 4, .refreshed (receivingAt (5 / 4) 2000)), (3 / 2, .joined)]

theorem served_traffic_oneTick : ∃ interval s, Sampler.intervalOf 1 = some interval ∧
    (timedSampler .abort quietToVec interval (receivingAt 0 500) (receivingAt 0 500)).Reaches
      oneTick s ∧
      ∃ p ∈ s.state.published, ∃ snaps : Nat → Snapshot,
        p.life.map Refresh.reading = [receivingAt 0 500, receivingAt (5 / 4) 2000] ∧
        (∀ k < 2, ⟨snaps k, p.life.take (k + 1)⟩ ∈ s.state.published) ∧
        NetServed (netTicks (receivingAt 0 500) (readingAt p.life))
          (fun k => (snaps k).network) 1 := by
  have hi : Sampler.intervalOf 1 = some second := by
    with_unfolding_all rfl
  have hrun : ∃ s, (timedSampler .abort quietToVec second (receivingAt 0 500)
      (receivingAt 0 500)).Reaches oneTick s ∧
      s.state.published.map (fun p => p.life.map Refresh.reading) =
        [[receivingAt 0 500], [receivingAt 0 500, receivingAt (5 / 4) 2000]] := by
    with_unfolding_all exact ⟨_, rfl, rfl⟩
  obtain ⟨s, hr, hlives⟩ := hrun
  obtain ⟨p, hp, hlife⟩ : ∃ p ∈ s.state.published,
      p.life.map Refresh.reading = [receivingAt 0 500, receivingAt (5 / 4) 2000] := by
    have hmem : [receivingAt 0 500, receivingAt (5 / 4) 2000] ∈
        s.state.published.map (fun p => p.life.map Refresh.reading) := by
      rw [hlives]
      exact List.mem_cons_of_mem _ List.mem_cons_self
    exact List.mem_map.mp hmem
  obtain ⟨created, snaps, hcr, hpub, htraffic⟩ := served_traffic hi le_rfl le_rfl hr p hp
  have hlen : p.life.length = 2 := by
    rw [← List.length_map Refresh.reading, hlife]
    rfl
  have hreading : ∀ k, readingAt p.life k =
      [receivingAt 0 500, receivingAt (5 / 4) 2000][k]?.getD .quiet := fun k => by
    rw [readingAt, ← List.getElem?_map, hlife]
  obtain rfl : created = receivingAt 0 500 := by
    rcases hcr with hcr | ⟨t, ht⟩
    · exact hcr
    · simp [oneTick] at ht
  refine ⟨_, s, hi, hr, p, hp, snaps, hlife, hlen ▸ hpub, (htraffic 1 (by omega)).1 ?_⟩
  have hnet : ∀ k, netTicks (receivingAt 0 500) (readingAt p.life) k =
      (SamplerState.new (receivingAt 0 500)).netTick
        ([receivingAt 0 500, receivingAt (5 / 4) 2000][k]?.getD .quiet) := fun k => by
    rw [netTicks, hreading]
  refine ⟨fun i hi => ?_, fun i hi => ?_⟩
  · rw [hnet]
    rcases Nat.le_one_iff_eq_zero_or_eq_one.mp hi with rfl | rfl <;>
      exact ⟨by decide, by decide, by decide⟩
  · rw [Nat.lt_one_iff.mp hi, hnet, hnet]
    simp only [List.forall_mem_cons, List.not_mem_nil, false_imp_iff, implies_true, and_true]
    exact ⟨by unfold Counters.Keeps; decide, by unfold Counters.Keeps; decide⟩

end Vigil

import Vigil.Lib.Cadence
import Vigil.Sampler.Publish

/-!
# Staleness of the cached parts

The process tables and the mount table outlive the refresh that reads them. The
`life` of a publication lists the refreshes its `SamplerState` has seen, from its
creation up to the one that made the snapshot. `Fresh` says that the process
tables are all from one scan, at most 4 refreshes back, and the mount table from
a listing at most 59 back; a state that is rebuilt starts a new life.
-/

namespace Vigil

open Vigil.Lib Vigil.Metrics

/-- Refresh number `n` of a state scans the processes. -/
def scanDueAt (n : Nat) : Bool := due (2 ^ 64) processScanEvery n

/-- Refresh number `n` of a state lists the mounts. -/
def listDueAt (n : Nat) : Bool := due (2 ^ 64) diskListRefreshEvery n

/-- The process tables are those of the scan `j` refreshes before the last one of the life. -/
def Publication.ScannedBefore (p : Publication) (j : Nat) : Prop :=
  ∃ x, p.life.reverse[j]? = some x ∧ scanDueAt (p.life.length - 1 - j) = true ∧ p.snap.scan = x.scan

/-- The mount table is that listed `j` refreshes before the last one of the life. -/
def Publication.ListedBefore (p : Publication) (j : Nat) : Prop :=
  ∃ x last, p.life.reverse[j]? = some x ∧ p.life.getLast? = some last ∧
    listDueAt (p.life.length - 1 - j) = true ∧
    p.snap.disk = collectRoot last.reading x.reading.mounts ∧
    p.snap.disks = collectAll last.reading x.reading.mounts

def Publication.Fresh (p : Publication) : Prop :=
  (∃ j ≤ 4, p.ScannedBefore j) ∧ ∃ j ≤ 59, p.ListedBefore j

/-- The state is what its life makes of it. -/
structure SamplerState.Lived (life : List Refresh) (st : SamplerState) : Prop where
  tick : st.tick = life.length % 2 ^ 64
  cached : ∃ init, st.cached = cacheAfter scanDueAt Refresh.scan init life
  disks : ∃ init, st.disks = cacheAfter listDueAt (fun x => x.reading.mounts) init life

namespace SamplerState

variable {life : List Refresh} {st : SamplerState}

theorem lived_new (r : Reading) : (SamplerState.new r).Lived [] :=
  ⟨rfl, ⟨_, rfl⟩, ⟨_, rfl⟩⟩

theorem Lived.scanDue (h : st.Lived life) : st.scanDue = scanDueAt life.length := by
  rw [scanDue_eq, h.tick]
  rfl

theorem Lived.listDue (h : st.Lived life) : st.listDue = listDueAt life.length := by
  rw [listDue_eq, h.tick]
  rfl

/-- A refresh adds itself to the life, also where the tick counter wraps. -/
theorem Lived.refresh (h : st.Lived life) (g : Statics) (r : Reading) :
    (st.refresh g r).2.1.Lived (life ++ [⟨g, r⟩]) := by
  have hs := st.refresh_spec g r
  refine ⟨?_, ?_, ?_⟩
  · rw [hs.tick, h.tick, wrapAdd, List.length_append, List.length_singleton]
    omega
  · obtain ⟨init, hc⟩ := h.cached
    exact ⟨init, by rw [hs.cached, cacheAfter_snoc, h.scanDue, hc]⟩
  · obtain ⟨init, hd⟩ := h.disks
    exact ⟨init, by rw [hs.disks, cacheAfter_snoc, h.listDue, hd]⟩

theorem Lived.fresh (h : st.Lived life) (g : Statics) (r : Reading) :
    (Publication.mk (st.refresh g r).1 (life ++ [⟨g, r⟩])).Fresh := by
  have hs := st.refresh_spec g r
  have hl := h.refresh g r
  have hne : life ++ [⟨g, r⟩] ≠ [] := by simp
  constructor
  · obtain ⟨init, hc⟩ := hl.cached
    obtain ⟨j, hj, x, hx, hd, he⟩ :=
      exists_fresh (2 ^ 64) processScanEvery (by decide) Refresh.scan init hne
    exact ⟨j, Nat.le_of_lt_succ hj, x, hx, hd, by rw [hs.scan, hc]; exact he⟩
  · obtain ⟨init, hm⟩ := hl.disks
    obtain ⟨j, hj, x, hx, hd, he⟩ :=
      exists_fresh (2 ^ 64) diskListRefreshEvery (by decide)
        (fun x : Refresh => x.reading.mounts) init hne
    have hmounts : (st.refresh g r).2.1.disks = x.reading.mounts := hm.trans he
    refine ⟨j, Nat.le_of_lt_succ hj, x, ⟨g, r⟩, hx, by simp, hd, ?_, ?_⟩
    · rw [hs.root, hmounts]
    · rw [hs.all, hmounts]

end SamplerState

namespace Sampler

variable {strategy : PanicStrategy} {ser : ToVec} {seed first : Reading} {s s' : Sampler}

/-- The state the task holds has lived the present life, and what waits for the task to publish it
is fresh. -/
def TaskLived (s : Sampler) : Prop :=
  match s.task with
  | .sleeping (some st) | .refreshing st => st.Lived s.life
  | .joining (some (snap, st)) => st.Lived s.life ∧ (Publication.mk snap s.life).Fresh
  | .sleeping none | .joining none | .stopped | .panicked => True

/-- The task keeps to its life, and every publication is fresh. -/
structure Tiered (s : Sampler) : Prop where
  task : s.TaskLived
  published : ∀ p ∈ s.published, p.Fresh

theorem tiered_start (ser : ToVec) (seed first : Reading) : (start ser seed first).Tiered := by
  have h := SamplerState.lived_new seed
  refine ⟨h.refresh .uninit first, fun p hp => ?_⟩
  rw [List.mem_singleton.mp hp]
  exact h.fresh .uninit first

theorem tiered_panic (h : s.Tiered) : (s.panic strategy).Tiered := by
  cases strategy with
  | unwind => exact ⟨trivial, h.published⟩
  | abort => exact ⟨h.task, h.published⟩

theorem tiered_step {e : SamplerEvent} (h : s.Tiered) (hs : s.step strategy ser e = some s') :
    s'.Tiered := by
  have ht := h.task
  unfold TaskLived at ht
  cases (step_moves hs).2 with
  | wake st htask =>
    rw [htask] at ht
    exact ⟨ht, h.published⟩
  | refreshed owned r htask =>
    rw [htask] at ht
    exact ⟨⟨ht.refresh s.statics r, ht.fresh s.statics r⟩, h.published⟩
  | joined snap st htask =>
    rw [htask] at ht
    refine ⟨ht.1, fun p hp => ?_⟩
    rcases List.mem_append.mp hp with hp | hp
    · exact h.published p hp
    · rw [List.mem_singleton.mp hp]
      exact ht.2
  | rebuilt r _ => exact ⟨SamplerState.lived_new r, h.published⟩
  | expect | rebuildPanics => exact tiered_panic h
  | failed | stop => exact ⟨trivial, h.published⟩
  | abort | read => exact ⟨h.task, h.published⟩

theorem tiered_of_reaches {es : List SamplerEvent}
    (hr : (sampler strategy ser seed first).Reaches es s) : s.Tiered :=
  hr.inv (P := Tiered) (tiered_start ser seed first) fun _ _ _ h hs => tiered_step h hs

end Sampler

/-- **Bounded staleness of every publication.** -/
theorem published_fresh {strategy : PanicStrategy} {ser : ToVec} {seed first : Reading}
    {es : List SamplerEvent} {s : Sampler} (hr : (sampler strategy ser seed first).Reaches es s) :
    ∀ p ∈ s.published, p.Fresh :=
  (Sampler.tiered_of_reaches hr).published

theorem published_fresh_failedTick :
    ∃ s, (sampler .unwind quietToVec .quiet .quiet).Reaches failedTick s ∧
      s.published.map (fun p => p.life.length) = [1, 2, 1] ∧ ∀ p ∈ s.published, p.Fresh := by
  have hrun : ∃ s, (sampler .unwind quietToVec .quiet .quiet).Reaches failedTick s ∧
      s.published.map (fun p => p.life.length) = [1, 2, 1] := by
    with_unfolding_all exact ⟨_, rfl, rfl⟩
  obtain ⟨s, hr, hl⟩ := hrun
  exact ⟨s, hr, hl, published_fresh hr⟩

end Vigil

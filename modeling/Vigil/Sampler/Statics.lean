import Vigil.Sampler.Invariant

/-!
# What is decided once

The user, the distribution and the choice between PSS and RSS sit in
`OnceLock`s: the first refresh initialises them, and from then on the process
reports what it found then. `statics_decided` says so of every publication,
across failed ticks and rebuilt states, whatever the host answers later. The
metric is cached with the process tables, so it takes the tick law to see that
no publication carries the label of a state that has not scanned yet.
-/

namespace Vigil

open Vigil.Lib Vigil.Metrics

namespace SamplerState

variable (st : SamplerState) (g : Statics) (r : Reading)

theorem refresh_statics : (st.refresh g r).2.2 =
    { user := some (g.user.getD r.username)
      distro := some (g.distro.getD (detectDistro r))
      pssSupported :=
        if st.scanDue then some (g.pssSupported.getD (detectPss r (.new r)))
        else g.pssSupported } := by
  have hscan : ((st.refreshCounters r).scanPhase g r).2 =
      { g with
        pssSupported :=
          if st.scanDue then some (g.pssSupported.getD (detectPss r (.new r)))
          else g.pssSupported } := by
    unfold scanPhase
    rw [show (st.refreshCounters r).scanDue = st.scanDue from rfl]
    split <;> rfl
  show ((((st.refreshCounters r).scanPhase g r).1.listPhase r).nextTick.collect
    ((st.refreshCounters r).scanPhase g r).2 r).2.2 = _
  rw [hscan]
  rfl

theorem refresh_user : some (st.refresh g r).1.user = (st.refresh g r).2.2.user := rfl

theorem refresh_distro :
    some (st.refresh g r).1.platform.distro = (st.refresh g r).2.2.distro := rfl

end SamplerState

/-- The label agrees with the choice, which is made. -/
def LabelAgrees (g : Statics) (label : String) : Prop :=
  ∃ b, g.pssSupported = some b ∧ label = processMetricLabel b

theorem LabelAgrees.extends {g g' : Statics} {label : String} (h : LabelAgrees g label)
    (he : g.Extends g') : LabelAgrees g' label := by
  obtain ⟨b, hb, hl⟩ := h
  have := he.2.2
  rw [hb] at this
  exact ⟨b, by simpa using this, hl⟩

/-- The snapshot shows the statics. -/
structure Decided (g : Statics) (snap : Snapshot) : Prop where
  user : g.user = some snap.user
  distro : g.distro = some snap.platform.distro
  metric : LabelAgrees g snap.processesMetric

theorem refreshInv_decided : RefreshInv (fun _ => True)
    (fun g st => st.scanDue = true ∨ LabelAgrees g st.cachedProcessesMetric) Decided where
  new _ _ _ := .inl rfl
  refresh st g r hst _ := by
    have hs := st.refresh_spec g r
    have hlabel : LabelAgrees (st.refresh g r).2.2 (st.refresh g r).2.1.cached.metric := by
      rw [hs.cached, st.refresh_statics g r]
      cases hd : st.scanDue with
      | true => exact ⟨_, rfl, rfl⟩
      | false =>
        obtain h | ⟨b, hb, hl⟩ := hst
        · rw [hd] at h
          cases h
        · exact ⟨b, hb, hl⟩
    refine ⟨.inr hlabel, (st.refresh_user g r).symm, (st.refresh_distro g r).symm, ?_⟩
    have hmetric : (st.refresh g r).1.scan.metric = (st.refresh g r).2.1.cached.metric :=
      congrArg ProcessScan.metric hs.scan
    show LabelAgrees _ (st.refresh g r).1.scan.metric
    rw [hmetric]
    exact hlabel
  mono_state _ _ _ he h := h.imp_right fun h => h.extends he
  mono_snap g g' snap he h := by
    have hu := he.1
    have hd := he.2.1
    rw [h.user] at hu
    rw [h.distro] at hd
    exact ⟨by simpa using hu, by simpa using hd, h.metric.extends he⟩

/-- The snapshots of two publications of one run agree on what is decided once. -/
theorem Decided.agree {g : Statics} {p q : Snapshot} (hp : Decided g p) (hq : Decided g q) :
    p.user = q.user ∧ p.platform.distro = q.platform.distro ∧
      p.processesMetric = q.processesMetric := by
  obtain ⟨b, hb, hpl⟩ := hp.metric
  obtain ⟨b', hb', hql⟩ := hq.metric
  obtain rfl : b = b' := Option.some.inj (hb.symm.trans hb')
  exact ⟨Option.some.inj (hp.user.symm.trans hq.user),
    Option.some.inj (hp.distro.symm.trans hq.distro), hpl.trans hql.symm⟩

/-- The publication of `Sampler::start` is never taken back. -/
theorem mem_published_start {strategy : PanicStrategy} {ser : ToVec} {seed first : Reading}
    {es : List SamplerEvent} {s : Sampler} (hr : (sampler strategy ser seed first).Reaches es s) :
    ⟨((SamplerState.new seed).refresh .uninit first).1, [⟨.uninit, first⟩]⟩ ∈ s.published := by
  refine hr.inv (P := fun s : Sampler => _ ∈ s.published) (List.mem_singleton_self _) ?_
  intro s e s' hm hs
  rcases Sampler.slots_step hs with ⟨-, hp⟩ | ⟨snap, st, -, rfl⟩
  · rwa [hp]
  · exact List.mem_append_left _ hm

/-- **The first refresh decides.** In every run all publications show the user, the distribution and
the accounting of memory that the first reading of the process gave. -/
theorem statics_decided {strategy : PanicStrategy} {ser : ToVec} {seed first : Reading}
    {es : List SamplerEvent} {s : Sampler} (hr : (sampler strategy ser seed first).Reaches es s) :
    ∀ p ∈ s.published, p.snap.user = first.username ∧
      p.snap.platform.distro = detectDistro first ∧
      p.snap.processesMetric = processMetricLabel (detectPss first (.new first)) := by
  have hes : ∀ e ∈ es, e.Reads fun _ => True := fun e _ => by cases e <;> trivial
  have hdec := published_of refreshInv_decided trivial trivial hes hr
  exact fun p hp => (hdec p hp).agree (hdec _ (mem_published_start hr))

/-- Another user name, a rename of the distribution and a failed tick change nothing. -/
def renamedHost : List SamplerEvent :=
  let later : Reading := { Reading.quiet with username := "guest", systemName := some "Debian" }
  [.wake, .refreshPanics ⟨some "root", some "unknown", some false⟩, .rebuilt later, .wake,
    .refreshed later, .joined]

theorem statics_decided_renamedHost :
    ∃ s, (sampler .unwind quietToVec .quiet .quiet).Reaches renamedHost s ∧
      s.published.length = 2 ∧ ∀ p ∈ s.published, p.snap.user = "root" := by
  have hrun : ∃ s, (sampler .unwind quietToVec .quiet .quiet).Reaches renamedHost s ∧
      s.published.length = 2 := by
    with_unfolding_all exact ⟨_, rfl, rfl⟩
  obtain ⟨s, hr, hl⟩ := hrun
  exact ⟨s, hr, hl, fun p hp => (statics_decided hr p hp).1⟩

end Vigil

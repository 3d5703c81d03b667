import Vigil.Sampler.Publish

/-!
# The interface list over a run

A tick refreshes the counters of the interfaces that are listed. They are listed
when a `SamplerState` is created and never again: neither of the two slow tiers
of `refresh` does for the networks what it does for the mounts and the users. So
what is published keeps showing the interfaces the host had when the state was
created, and `interfaces_follow_iff` says for which hosts that is good enough.
-/

namespace Vigil

open Vigil.Lib Vigil.Metrics

namespace SamplerState

variable (st : SamplerState) (g : Statics) (r : Reading)

@[simp] theorem scanPhase_networks : (st.scanPhase g r).1.networks = st.networks := by
  unfold scanPhase; split <;> rfl

@[simp] theorem listPhase_networks : (st.listPhase r).networks = st.networks := by
  unfold listPhase; split <;> rfl

@[simp] theorem collect_networks : (st.collect g r).2.1.networks = st.networks := rfl

@[simp] theorem nextTick_networks : st.nextTick.networks = st.networks := rfl

/-- **No tier of a refresh lists the networks.** -/
theorem refresh_networks : (st.refresh g r).2.1.networks = refreshNetworks st.networks r := by
  rw [refresh, collect_networks, nextTick_networks, listPhase_networks, scanPhase_networks]
  rfl

theorem refresh_networkStats :
    (st.refresh g r).1.networkStats = statistics r (st.refresh g r).2.1.networks := rfl

end SamplerState

/-! ## What the host had -/

/-- The reading of a tick: of the refresh, or of the rebuild when the refresh has panicked. -/
def SamplerEvent.tick? : SamplerEvent → Option Reading
  | .refreshed r | .rebuilt r => some r
  | _ => none

/-- One reading for each tick, the one of `Sampler::start` first. -/
def ticks (first : Reading) (es : List SamplerEvent) : List Reading :=
  first :: es.filterMap SamplerEvent.tick?

def SamplerEvent.creates (listed : Reading) : SamplerEvent → Reading
  | .rebuilt r => r
  | _ => listed

/-- The reading that the present state was created from. -/
def createdFrom (seed : Reading) (es : List SamplerEvent) : Reading :=
  es.foldl SamplerEvent.creates seed

def lastTicks (n : Nat) (ts : List Reading) : List Reading := ts.drop (ts.length - n)

/-- The interface has been there for more than `K` ticks. -/
def UpFor (K : Nat) (ts : List Reading) (name : String) : Prop :=
  K < ts.length ∧ ∀ r ∈ lastTicks (K + 1) ts, name ∈ r.interfaces

/-- It has been gone for more than `K` ticks. -/
def DownFor (K : Nat) (ts : List Reading) (name : String) : Prop :=
  K < ts.length ∧ ∀ r ∈ lastTicks (K + 1) ts, name ∉ r.interfaces

/-! ## What is published -/

/-- The interface is in the lists of the snapshot, and in the sum that the state made for it. -/
structure Shown (name : String) (snap : Snapshot) (st : SamplerState) : Prop where
  interfaces : name ∈ snap.interfaces
  stats : name ∈ snap.networkStats.map Prod.fst
  throughput : name ≠ "lo" → name ∈ interfaceNames (summed st.networks)

structure Hidden (name : String) (snap : Snapshot) (st : SamplerState) : Prop where
  interfaces : name ∉ snap.interfaces
  stats : name ∉ snap.networkStats.map Prod.fst
  throughput : name ∉ interfaceNames (summed st.networks)

/-- What is published follows the host with a delay of `K` ticks. -/
structure Follows (K : Nat) (ts : List Reading) (snap : Snapshot) (st : SamplerState) : Prop where
  up : ∀ name, UpFor K ts name → Shown name snap st
  down : ∀ name, DownFor K ts name → Hidden name snap st

/-- The events end with a publication, the one of `Sampler::start` or that of a tick. -/
def EndsPublished (es : List SamplerEvent) : Prop := es = [] ∨ es.getLast? = some .joined

/-- At every publication of the run, what is published follows the host. -/
def InterfacesFollow (K : Nat) (strategy : PanicStrategy) (ser : ToVec) (seed first : Reading)
    (es : List SamplerEvent) : Prop :=
  ∀ fs s st, fs <+: es → EndsPublished fs → (sampler strategy ser seed first).Reaches fs s →
    s.task = .sleeping (some st) → Follows K (ticks first fs) s.snapshot st

/-- An interface whose presence has not changed for more than `K` ticks was there when the state
was created, or was not, accordingly. -/
structure SettledSince (K : Nat) (ts : List Reading) (created : Reading) : Prop where
  up : ∀ name, UpFor K ts name → name ∈ created.interfaces
  down : ∀ name, DownFor K ts name → name ∉ created.interfaces

/-- The snapshot and the state show these interfaces and no others. -/
structure Lists (names : List String) (snap : Snapshot) (st : SamplerState) : Prop where
  interfaces : snap.interfaces = names
  stats : ∀ name, name ∈ snap.networkStats.map Prod.fst ↔ name ∈ names
  networks : interfaceNames st.networks = names

namespace Lists

variable {names : List String} {snap : Snapshot} {st : SamplerState}

theorem refresh (h : interfaceNames st.networks = names) (g : Statics) (r : Reading) :
    Lists names (st.refresh g r).1 (st.refresh g r).2.1 := by
  have hn : interfaceNames (st.refresh g r).2.1.networks = names := by
    rw [st.refresh_networks, interfaceNames_refreshNetworks, h]
  refine ⟨hn, fun name => ?_, hn⟩
  rw [st.refresh_networkStats, mem_statistics, hn]

theorem shown_iff (h : Lists names snap st) {name : String} :
    Shown name snap st ↔ name ∈ names := by
  constructor
  · intro hs
    rw [← h.interfaces]
    exact hs.interfaces
  · intro hm
    refine ⟨by rwa [h.interfaces], (h.stats name).mpr hm, fun hlo => ?_⟩
    exact mem_summed_names.mpr ⟨by rwa [h.networks], hlo⟩

theorem hidden_iff (h : Lists names snap st) {name : String} :
    Hidden name snap st ↔ name ∉ names := by
  constructor
  · intro hs
    rw [← h.interfaces]
    exact hs.interfaces
  · intro hm
    refine ⟨by rwa [h.interfaces], fun hk => hm ((h.stats name).mp hk), fun hk => ?_⟩
    apply hm
    rw [← h.networks]
    exact (mem_summed_names.mp hk).1

end Lists

namespace Sampler

variable {strategy : PanicStrategy} {ser : ToVec} {seed first : Reading}

/-- The state the task holds lists these interfaces, and so does what waits to be published. -/
def TaskLists (names : List String) (s : Sampler) : Prop :=
  match s.task with
  | .sleeping (some st) | .refreshing st => interfaceNames st.networks = names
  | .joining (some (snap, st)) => Lists names snap st
  | .sleeping none | .joining none | .stopped | .panicked => True

theorem taskLists_panic {names : List String} {s : Sampler} (h : s.TaskLists names) :
    (s.panic strategy).TaskLists names := by
  cases strategy with
  | unwind => trivial
  | abort => exact h

theorem taskLists_step {listed : Reading} {s s' : Sampler} {e : SamplerEvent}
    (h : s.TaskLists listed.interfaces) (hs : s.step strategy ser e = some s') :
    s'.TaskLists (e.creates listed).interfaces := by
  unfold TaskLists at h
  cases (step_moves hs).2 with
  | wake st htask =>
    rw [htask] at h
    exact h
  | refreshed owned r htask =>
    rw [htask] at h
    exact Lists.refresh h s.statics r
  | joined snap st htask =>
    rw [htask] at h
    exact h.networks
  | rebuilt r _ => exact interfaceNames_listNetworks r
  | expect | rebuildPanics => exact taskLists_panic h
  | failed | stop => trivial
  | abort | read => exact h

/-- **The interfaces of the present state are those of the reading it was created from.** -/
theorem taskLists {es : List SamplerEvent} {s : Sampler}
    (hr : (sampler strategy ser seed first).Reaches es s) :
    s.TaskLists (createdFrom seed es).interfaces := by
  refine hr.hist (P := fun es s => s.TaskLists (createdFrom seed es).interfaces) ?_ ?_
  · exact (Lists.refresh (interfaceNames_listNetworks seed) .uninit first).networks
  · intro es e s s' _ h hs
    rw [createdFrom, List.foldl_append]
    exact taskLists_step h hs

theorem lists_published {es : List SamplerEvent} {s : Sampler}
    (hr : (sampler strategy ser seed first).Reaches es s) (hp : EndsPublished es) :
    ∃ st, s.task = .sleeping (some st) ∧
      Lists (createdFrom seed es).interfaces s.snapshot st := by
  rcases hp with rfl | hl
  · rw [Machine.reaches_nil.mp hr]
    exact ⟨_, rfl, Lists.refresh (interfaceNames_listNetworks seed) .uninit first⟩
  · obtain ⟨fs, rfl⟩ := List.getLast?_eq_some_iff.mp hl
    obtain ⟨s₀, hr₀, hs⟩ := Machine.reaches_snoc.mp hr
    have h := taskLists hr₀
    rw [createdFrom, List.foldl_append]
    cases (step_moves hs).2 with
    | joined snap st htask =>
      unfold TaskLists at h
      rw [htask] at h
      exact ⟨st, rfl, h⟩

end Sampler

/-- **When the interface list follows the host.** What a run publishes follows the host with a delay
of `K` ticks exactly when, at each publication, every interface whose presence has not changed for
more than `K` ticks had that presence already when the state was created. -/
theorem interfaces_follow_iff {K : Nat} {strategy : PanicStrategy} {ser : ToVec}
    {seed first : Reading} {es : List SamplerEvent} {s : Sampler}
    (hr : (sampler strategy ser seed first).Reaches es s) :
    InterfacesFollow K strategy ser seed first es ↔
      ∀ fs, fs <+: es → EndsPublished fs →
        SettledSince K (ticks first fs) (createdFrom seed fs) := by
  constructor
  · intro h fs hp he
    obtain ⟨t, ht⟩ := hr.initial hp
    obtain ⟨st, htask, hl⟩ := Sampler.lists_published ht he
    have hf := h fs t st hp he ht htask
    exact ⟨fun name hu => hl.shown_iff.mp (hf.up name hu),
      fun name hd => hl.hidden_iff.mp (hf.down name hd)⟩
  · intro h fs t st hp he ht htask
    have hs := h fs hp he
    obtain ⟨st', htask', hl⟩ := Sampler.lists_published ht he
    obtain rfl : st = st' := by
      rw [htask] at htask'
      cases htask'
      rfl
    exact ⟨fun name hu => hl.shown_iff.mpr (hs.up name hu),
      fun name hd => hl.hidden_iff.mpr (hs.down name hd)⟩

/-! ## A link that comes up -/

def tickOf (r : Reading) : List SamplerEvent := [.wake, .refreshed r, .joined]

def ticksOf (r : Reading) : Nat → List SamplerEvent
  | 0 => []
  | n + 1 => ticksOf r n ++ tickOf r

def wiredHost : Reading := { Reading.quiet with interfaces := ["eth0"] }

namespace Sampler

variable {strategy : PanicStrategy} {ser : ToVec} {seed first : Reading}

/-- A tick that succeeds leads back to a task that sleeps on its state. -/
theorem run_tickOf (r : Reading) {s : Sampler} {st : SamplerState} (ha : s.aborted = false)
    (ht : s.task = .sleeping (some st)) :
    ∃ s' st', (sampler strategy ser seed first).run s (tickOf r) = some s' ∧
      s'.aborted = false ∧ s'.task = .sleeping (some st') := by
  let s₁ : Sampler := { s with task := .refreshing st }
  let res := st.refresh s.statics r
  have h₁ : s.step strategy ser .wake = some s₁ := by simp [step, ha, ht, s₁]
  have h₂ : s₁.step strategy ser (.refreshed r) = some (s₁.runRefresh st r) := by
    simp [step, ha, s₁]
  have h₃ : (s₁.runRefresh st r).step strategy ser .joined =
      some ((s₁.runRefresh st r).publish ser res.1 res.2.1) := by
    simp [step, ha, s₁, res, runRefresh]
  refine ⟨(s₁.runRefresh st r).publish ser res.1 res.2.1, res.2.1, ?_, ha, rfl⟩
  show (s.step strategy ser .wake).bind _ = _
  rw [h₁]
  show (s₁.step strategy ser (.refreshed r)).bind _ = _
  rw [h₂]
  show ((s₁.runRefresh st r).step strategy ser .joined).bind _ = _
  rw [h₃]
  rfl

/-- Ticks that succeed can follow one another for ever. -/
theorem reaches_ticksOf (r : Reading) (n : Nat) :
    ∃ s st, (sampler strategy ser seed first).Reaches (ticksOf r n) s ∧ s.aborted = false ∧
      s.task = .sleeping (some st) := by
  induction n with
  | zero => exact ⟨_, _, rfl, rfl, rfl⟩
  | succ n ih =>
    obtain ⟨s, st, hr, ha, ht⟩ := ih
    obtain ⟨s', st', hs, ha', ht'⟩ := run_tickOf r ha ht
    refine ⟨s', st', ?_, ha', ht'⟩
    rw [ticksOf, Machine.Reaches, Machine.run_append, hr]
    exact hs

end Sampler

theorem ticks_ticksOf (first r : Reading) (n : Nat) :
    ticks first (ticksOf r n) = first :: List.replicate n r := by
  induction n with
  | zero => rfl
  | succ n ih =>
    rw [ticks, List.cons.injEq] at ih
    rw [ticks, ticksOf, List.filterMap_append, ih.2, List.replicate_succ']
    rfl

theorem creates_of_mem_ticksOf {r listed : Reading} {n : Nat} {e : SamplerEvent}
    (he : e ∈ ticksOf r n) : e.creates listed = listed := by
  induction n with
  | zero => cases he
  | succ n ih =>
    rcases List.mem_append.mp he with he | he
    · exact ih he
    · simp only [tickOf, List.mem_cons, List.not_mem_nil, or_false] at he
      rcases he with rfl | rfl | rfl <;> rfl

theorem createdFrom_ticksOf {seed r : Reading} {n : Nat} {fs : List SamplerEvent}
    (hp : fs <+: ticksOf r n) : createdFrom seed fs = seed := by
  have hfold : ∀ gs : List SamplerEvent, (∀ e ∈ gs, e.creates seed = seed) →
      gs.foldl SamplerEvent.creates seed = seed := by
    intro gs
    induction gs with
    | nil => exact fun _ => rfl
    | cons e gs ih =>
      intro h
      rw [List.foldl_cons, h e List.mem_cons_self]
      exact ih fun e he => h e (List.mem_cons_of_mem _ he)
  exact hfold fs fun e he => creates_of_mem_ticksOf (hp.subset he)

theorem endsPublished_ticksOf (r : Reading) (n : Nat) : EndsPublished (ticksOf r n) := by
  cases n with
  | zero => exact .inl rfl
  | succ n => exact .inr (by simp [ticksOf, tickOf])

/-- On a host that keeps its interfaces nothing is ever unsettled. -/
theorem settledSince_of_forall {K : Nat} {ts : List Reading} {created : Reading}
    (h : ∀ r ∈ ts, r.interfaces = created.interfaces) : SettledSince K ts created := by
  have hlast : K < ts.length → ∃ r ∈ lastTicks (K + 1) ts, r.interfaces = created.interfaces := by
    intro hK
    have hpos : 0 < (lastTicks (K + 1) ts).length := by
      rw [lastTicks, List.length_drop]
      omega
    obtain ⟨r, hr⟩ := List.exists_mem_of_length_pos hpos
    exact ⟨r, hr, h r (List.mem_of_mem_drop hr)⟩
  constructor
  · intro name hu
    obtain ⟨r, hr, he⟩ := hlast hu.1
    rw [← he]
    exact hu.2 r hr
  · intro name hd
    obtain ⟨r, hr, he⟩ := hlast hd.1
    rw [← he]
    exact hd.2 r hr

theorem interfaces_follow_wired : ∃ s,
    (sampler .unwind quietToVec wiredHost wiredHost).Reaches (ticksOf wiredHost 2) s ∧
      InterfacesFollow 1 .unwind quietToVec wiredHost wiredHost (ticksOf wiredHost 2) := by
  have hrun : ∃ s st, (sampler .unwind quietToVec wiredHost wiredHost).Reaches
      (ticksOf wiredHost 2) s ∧ s.aborted = false ∧ s.task = .sleeping (some st) :=
    Sampler.reaches_ticksOf wiredHost 2
  obtain ⟨s, -, hr, -⟩ := hrun
  refine ⟨s, hr, (interfaces_follow_iff hr).mpr fun fs hp _ => ?_⟩
  rw [createdFrom_ticksOf hp]
  apply settledSince_of_forall
  intro r hr
  have hmem : r ∈ ticks wiredHost (ticksOf wiredHost 2) := by
    rcases List.mem_cons.mp hr with rfl | hr
    · exact List.mem_cons_self
    · exact List.mem_cons_of_mem _ ((hp.sublist.filterMap _).subset hr)
  rw [ticks_ticksOf] at hmem
  rcases List.mem_cons.mp hmem with rfl | hmem
  · rfl
  · rw [List.eq_of_mem_replicate hmem]

theorem upFor_wired (K : Nat) : UpFor K (.quiet :: List.replicate (K + 1) wiredHost) "eth0" := by
  refine ⟨by rw [List.length_cons, List.length_replicate]; omega, fun r hr => ?_⟩
  simp only [lastTicks, List.length_cons, List.length_replicate] at hr
  rw [show K + 1 + 1 - (K + 1) = 0 + 1 by omega, List.drop_succ_cons, List.drop_zero] at hr
  rw [List.eq_of_mem_replicate hr]
  exact List.mem_singleton_self _

/-- Whatever the delay granted, an interface that comes up after the start is not seen in time. -/
theorem interfaces_stale : ¬ ∃ K, ∀ (strategy : PanicStrategy) (ser : ToVec) (seed first : Reading)
    (es : List SamplerEvent) (s : Sampler), (sampler strategy ser seed first).Reaches es s →
      InterfacesFollow K strategy ser seed first es := by
  rintro ⟨K, h⟩
  have hrun : ∃ s st,
      (sampler .unwind quietToVec .quiet .quiet).Reaches (ticksOf wiredHost (K + 1)) s ∧
        s.aborted = false ∧ s.task = .sleeping (some st) :=
    Sampler.reaches_ticksOf wiredHost (K + 1)
  obtain ⟨s, st, hr, -, ht⟩ := hrun
  have hends := endsPublished_ticksOf wiredHost (K + 1)
  have hf := h _ _ _ _ _ s hr _ s st List.prefix_rfl hends hr ht
  obtain ⟨st', -, hl⟩ := Sampler.lists_published hr hends
  rw [ticks_ticksOf] at hf
  have hshown := (hf.up "eth0" (upFor_wired K)).interfaces
  rw [hl.interfaces, createdFrom_ticksOf List.prefix_rfl] at hshown
  cases hshown

end Vigil

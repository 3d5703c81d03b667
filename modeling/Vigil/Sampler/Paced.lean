import Vigil.Lib.Timed
import Vigil.Sampler.Publish
import Vigil.Startup

/-!
# The beat of the sampler

`samplerClock interval` adds its one timer to `sampler`: the task sleeps an
interval before each tick, counted from its last publication or rebuild. A
refresh reads the clock of the host while it runs, and time 0 is the return of
`Sampler::start`.

* `sampler_paced`: publications are an interval apart, and so are the times at
  which the refreshes of one state have read the clock.
-/

namespace Vigil

open Vigil.Lib Vigil.Metrics

/-- What the tick task remembers of past times. -/
structure TickTimes where
  wakeAt : ℚ
  woke : ℚ

/-- The two collectors that read the clock do so between `a` and `b`. -/
def Metrics.Reading.clockIn (r : Reading) (a b : ℚ) : Bool :=
  (a ≤ r.netNow && r.netNow ≤ b) && (a ≤ r.diskIo.now && r.diskIo.now ≤ b)

/-- The timer of a sampler that ticks every `interval`. -/
def samplerClock (interval : Duration) : Clock Sampler SamplerEvent TickTimes where
  -- the task goes to sleep when it is first polled, at 0 or later
  start := ⟨interval.secs, 0⟩
  ready m t
    | .wake => m.wakeAt ≤ t
    | .refreshed r => r.clockIn m.woke t
    | _ => true
  note _ m t e _ :=
    match e with
    | .wake => { m with woke := t }
    | .joined | .rebuilt _ => { m with wakeAt := t + interval.secs }
    | _ => m

def timedSampler (strategy : PanicStrategy) (ser : ToVec) (interval : Duration)
    (seed first : Reading) : Machine (Timed Sampler TickTimes) (ℚ × SamplerEvent) :=
  (sampler strategy ser seed first).timed (samplerClock interval)

namespace Sampler

variable {strategy : PanicStrategy} {ser : ToVec} {interval : Duration} {seed first : Reading}
variable {s s' : Timed Sampler TickTimes} {e : ℚ × SamplerEvent}

/-! ## What a step does -/

/-- The end of a tick: a publication, or the rebuild after a failure. -/
def endsTick : SamplerEvent → Bool
  | .joined | .rebuilt _ => true
  | _ => false

/-- **The moves of the sampler in time**, as far as its task, its life and its publications go. -/
inductive TimedMoves (interval : Duration) (s : Timed Sampler TickTimes) (t : ℚ) :
    SamplerEvent → Timed Sampler TickTimes → Prop where
  | wake (u : Sampler) (st : SamplerState) : s.state.task = .sleeping (some st) →
      s.mem.wakeAt ≤ t → u.task = .refreshing st → u.life = s.state.life →
      u.published = s.state.published →
      TimedMoves interval s t .wake ⟨u, t, { s.mem with woke := t }⟩
  | refreshed (u : Sampler) (owned : SamplerState) (r : Reading)
      (res : Snapshot × SamplerState) : s.state.task = .refreshing owned →
      r.clockIn s.mem.woke t = true → u.task = .joining (some res) →
      u.life = s.state.life ++ [⟨s.state.statics, r⟩] → u.published = s.state.published →
      TimedMoves interval s t (.refreshed r) ⟨u, t, s.mem⟩
  | failed (u : Sampler) (owned : SamplerState) (g : Statics) :
      s.state.task = .refreshing owned → u.task = .joining none →
      u.published = s.state.published → TimedMoves interval s t (.refreshPanics g) ⟨u, t, s.mem⟩
  | joined (u : Sampler) (snap : Snapshot) (st : SamplerState) :
      s.state.task = .joining (some (snap, st)) → u.task = .sleeping (some st) →
      u.life = s.state.life → u.published = s.state.published ++ [⟨snap, s.state.life⟩] →
      TimedMoves interval s t .joined ⟨u, t, { s.mem with wakeAt := t + interval.secs }⟩
  | rebuilt (u : Sampler) (r : Reading) : s.state.task = .joining none →
      u.task = .sleeping (some (.new r)) → u.life = [] → u.published = s.state.published →
      TimedMoves interval s t (.rebuilt r) ⟨u, t, { s.mem with wakeAt := t + interval.secs }⟩
  /-- the task is over, or will be when it wakes -/
  | halts (e : SamplerEvent) (u : Sampler) (m : TickTimes) : endsTick e = false →
      u.task = .stopped ∨ u.task = .panicked ∨ u.task = .sleeping none →
      u.published = s.state.published → TimedMoves interval s t e ⟨u, t, m⟩
  | stays (e : SamplerEvent) (u : Sampler) : endsTick e = false → u.task = s.state.task →
      u.life = s.state.life → u.published = s.state.published →
      TimedMoves interval s t e ⟨u, t, s.mem⟩

theorem timed_moves (hs : (timedSampler strategy ser interval seed first).step s e = some s') :
    s.now ≤ e.1 ∧ TimedMoves interval s e.1 e.2 s' := by
  have hstep := Machine.timedStep hs
  have hready := hstep.ready
  have hmem := hstep.mem
  obtain ⟨-, hmoves⟩ := step_moves hstep.step
  refine ⟨hstep.later, ?_⟩
  obtain ⟨t, e⟩ := e
  obtain ⟨u, now, m⟩ := s'
  obtain rfl : now = t := hstep.now
  dsimp only at hready hmem hmoves
  subst hmem
  cases hmoves with
  | wake st htask => exact .wake _ st htask (of_decide_eq_true hready) rfl rfl rfl
  | expect htask =>
    cases strategy with
    | unwind => exact .halts _ _ _ rfl (.inr (.inl rfl)) rfl
    | abort => exact .halts _ _ _ rfl (.inr (.inr htask)) rfl
  | refreshed owned r htask => exact .refreshed _ owned r _ htask hready rfl rfl rfl
  | failed owned g htask => exact .failed _ owned g htask rfl rfl
  | abort => exact .stays _ _ rfl rfl rfl rfl
  | joined snap st htask => exact .joined _ snap st htask rfl rfl rfl
  | rebuilt r htask => exact .rebuilt _ r htask rfl rfl rfl
  | rebuildPanics htask =>
    cases strategy with
    | unwind => exact .halts _ _ _ rfl (.inr (.inl rfl)) rfl
    | abort => exact .stays _ _ rfl rfl rfl rfl
  | stop => exact .halts _ _ _ rfl (.inl rfl) rfl
  | read => exact .stays _ _ rfl rfl rfl rfl

/-! ## The clock readings of a state -/

def times (clock : Reading → ℚ) (life : List Refresh) : List ℚ := life.map fun x => clock x.reading

@[simp] theorem times_snoc (clock : Reading → ℚ) (life : List Refresh) (x : Refresh) :
    times clock (life ++ [x]) = times clock life ++ [clock x.reading] := by
  rw [times, List.map_append]
  rfl

/-- The clock is one that a refresh reads. -/
def IsClock (clock : Reading → ℚ) : Prop :=
  ∀ r a b, r.clockIn a b = true → a ≤ clock r ∧ clock r ≤ b

theorem isClock_net : IsClock Reading.netNow := fun r a b h => by
  simp only [Reading.clockIn, Bool.and_eq_true, decide_eq_true_eq] at h
  exact h.1

theorem isClock_disk : IsClock fun r => r.diskIo.now := fun r a b h => by
  simp only [Reading.clockIn, Bool.and_eq_true, decide_eq_true_eq] at h
  exact h.2

/-- What the task waits for keeps its next reading of the clock away from those of the life. -/
def TaskBeats (clock : Reading → ℚ) (p : ℚ) (s : Timed Sampler TickTimes) : Prop :=
  match s.state.task with
  | .sleeping (some _) => SpacedBy p (times clock s.state.life) s.mem.wakeAt
  | .refreshing _ => SpacedBy p (times clock s.state.life) s.mem.woke
  | .joining (some _) => SpacedBy p (times clock s.state.life) (s.now + p)
  | .sleeping none | .joining none | .stopped | .panicked => True

/-- The task keeps its beat, and the clock readings of every published life are spaced. -/
structure Beats (clock : Reading → ℚ) (p : ℚ) (s : Timed Sampler TickTimes) : Prop where
  task : TaskBeats clock p s
  published : ∀ pub ∈ s.state.published, Spaced p (times clock pub.life)

theorem beats_start {clock : Reading → ℚ} (hc : clock first ≤ 0) :
    Beats clock interval.secs (timedSampler strategy ser interval seed first).init := by
  have hfirst : SpacedBy interval.secs [clock first] interval.secs :=
    (SpacedBy.none.start interval.nonneg le_rfl).wait (by linarith)
  refine ⟨hfirst, fun pub hp => ?_⟩
  obtain rfl := List.mem_singleton.mp hp
  exact List.pairwise_singleton _ _

theorem beats_step {clock : Reading → ℚ} (hc : IsClock clock) (h : Beats clock interval.secs s)
    (hs : (timedSampler strategy ser interval seed first).step s e = some s') :
    Beats clock interval.secs s' := by
  have ht := h.task
  unfold TaskBeats at ht
  obtain ⟨hlater, hmoves⟩ := timed_moves hs
  obtain ⟨t, e⟩ := e
  cases hmoves with
  | wake u st htask hdue hu hlife hpub =>
    rw [htask] at ht
    refine ⟨?_, hpub ▸ h.published⟩
    simp only [TaskBeats, hu, hlife]
    exact ht.wait hdue
  | refreshed u owned r res htask hread hu hlife hpub =>
    rw [htask] at ht
    obtain ⟨hafter, hbefore⟩ := hc r _ _ hread
    refine ⟨?_, hpub ▸ h.published⟩
    simp only [TaskBeats, hu, hlife, times_snoc]
    exact (ht.start interval.nonneg hafter).wait (by linarith)
  | failed u owned g htask hu hpub =>
    refine ⟨?_, hpub ▸ h.published⟩
    simp only [TaskBeats, hu]
  | joined u snap st htask hu hlife hpub =>
    rw [htask] at ht
    refine ⟨?_, fun pub hp => ?_⟩
    · simp only [TaskBeats, hu, hlife]
      exact ht.wait (by linarith)
    · rcases List.mem_append.mp (hpub ▸ hp) with hp | hp
      · exact h.published pub hp
      · rw [List.mem_singleton.mp hp]
        exact ht.spaced
  | rebuilt u r htask hu hlife hpub =>
    refine ⟨?_, hpub ▸ h.published⟩
    simp only [TaskBeats, hu, hlife]
    exact .none
  | halts e u m he hu hpub =>
    refine ⟨?_, hpub ▸ h.published⟩
    rcases hu with hu | hu | hu <;> simp only [TaskBeats, hu]
  | stays e u he hu hlife hpub =>
    refine ⟨?_, hpub ▸ h.published⟩
    simp only [TaskBeats, hu, hlife]
    split at ht <;> try exact ht
    exact ht.wait (by linarith)

theorem beats_of_reaches {clock : Reading → ℚ} (hc : IsClock clock) (h0 : clock first ≤ 0)
    {es : List (ℚ × SamplerEvent)}
    (hr : (timedSampler strategy ser interval seed first).Reaches es s) :
    Beats clock interval.secs s :=
  hr.inv (P := Beats clock interval.secs) (beats_start h0) fun _ _ _ h hs => beats_step hc h hs

/-! ## Publications -/

/-- The times of the publications: the first one is that of `Sampler::start`. -/
def publishTimes (es : List (ℚ × SamplerEvent)) : List ℚ :=
  0 :: es.filterMap fun
    | (t, .joined) => some t
    | _ => none

theorem publishTimes_joined (es : List (ℚ × SamplerEvent)) (t : ℚ) :
    publishTimes (es ++ [(t, .joined)]) = publishTimes es ++ [t] := by
  simp [publishTimes]

theorem publishTimes_rebuilt (es : List (ℚ × SamplerEvent)) (t : ℚ) (r : Reading) :
    publishTimes (es ++ [(t, .rebuilt r)]) = publishTimes es := by
  simp [publishTimes]

theorem publishTimes_of_not_endsTick (es : List (ℚ × SamplerEvent)) {e : ℚ × SamplerEvent}
    (he : endsTick e.2 = false) : publishTimes (es ++ [e]) = publishTimes es := by
  obtain ⟨t, e⟩ := e
  cases e with
  | joined | rebuilt r => cases he
  | wake | refreshed | refreshPanics | rebuildPanics | stop | read => simp [publishTimes]

/-- The sleep, and a tick from its start on, keep the next publication away from those so far. -/
def TaskPulse (p : ℚ) (es : List (ℚ × SamplerEvent)) (s : Timed Sampler TickTimes) : Prop :=
  match s.state.task with
  | .sleeping (some _) => SpacedBy p (publishTimes es) s.mem.wakeAt
  | .refreshing _ | .joining _ => SpacedBy p (publishTimes es) s.now
  | .sleeping none | .stopped | .panicked => True

structure Pulse (p : ℚ) (es : List (ℚ × SamplerEvent)) (s : Timed Sampler TickTimes) : Prop where
  task : TaskPulse p es s
  spaced : Spaced p (publishTimes es)

theorem pulse_step {es : List (ℚ × SamplerEvent)} (h : Pulse interval.secs es s)
    (hs : (timedSampler strategy ser interval seed first).step s e = some s') :
    Pulse interval.secs (es ++ [e]) s' := by
  have ht := h.task
  unfold TaskPulse at ht
  obtain ⟨hlater, hmoves⟩ := timed_moves hs
  obtain ⟨t, e⟩ := e
  have hother : endsTick e = false → publishTimes (es ++ [(t, e)]) = publishTimes es := fun he =>
    publishTimes_of_not_endsTick es he
  cases hmoves with
  | wake u st htask hdue hu =>
    rw [htask] at ht
    refine ⟨?_, hother rfl ▸ h.spaced⟩
    simp only [TaskPulse, hu, hother rfl]
    exact ht.wait hdue
  | refreshed u owned r res htask _ hu =>
    rw [htask] at ht
    refine ⟨?_, hother rfl ▸ h.spaced⟩
    simp only [TaskPulse, hu, hother rfl]
    exact ht.wait hlater
  | failed u owned g htask hu =>
    rw [htask] at ht
    refine ⟨?_, hother rfl ▸ h.spaced⟩
    simp only [TaskPulse, hu, hother rfl]
    exact ht.wait hlater
  | joined u snap st htask hu =>
    rw [htask] at ht
    have hstart := ht.start interval.nonneg hlater
    rw [← publishTimes_joined es t] at hstart
    refine ⟨?_, hstart.spaced⟩
    simp only [TaskPulse, hu]
    exact hstart
  | rebuilt u r htask hu =>
    rw [htask] at ht
    have hpos := interval.nonneg
    refine ⟨?_, publishTimes_rebuilt es t r ▸ h.spaced⟩
    simp only [TaskPulse, hu, publishTimes_rebuilt]
    exact ht.wait (by linarith)
  | halts e u m he hu =>
    refine ⟨?_, hother he ▸ h.spaced⟩
    rcases hu with hu | hu | hu <;> simp only [TaskPulse, hu]
  | stays e u he hu =>
    refine ⟨?_, hother he ▸ h.spaced⟩
    simp only [TaskPulse, hu, hother he]
    split at ht <;> try exact ht
    · exact ht.wait hlater
    · exact ht.wait hlater

end Sampler

/-- **The sampler keeps its beat.** It publishes no more often than once an interval, so no more
than ten times a second and once; and the refreshes of one state read the clock of the host at least
an interval apart, whatever ticks fail and however late they come. -/
theorem sampler_paced {strategy : PanicStrategy} {ser : ToVec} {interval : Duration} {secs : ℚ}
    {seed first : Reading} (hi : Sampler.intervalOf secs = some interval)
    (hnet : first.netNow ≤ 0) (hdisk : first.diskIo.now ≤ 0) {es : List (ℚ × SamplerEvent)}
    {s : Timed Sampler TickTimes}
    (hr : (timedSampler strategy ser interval seed first).Reaches es s) :
    Spaced interval.secs (Sampler.publishTimes es) ∧
      (∀ a b, a ≤ b → (((Sampler.publishTimes es).filter fun t => a ≤ t ∧ t ≤ b).length : ℚ) ≤
        10 * (b - a) + 1) ∧
      ∀ pub ∈ s.state.published,
        Spaced interval.secs (pub.life.map fun x => x.reading.netNow) ∧
        Spaced interval.secs (pub.life.map fun x => x.reading.diskIo.now) := by
  have hmax : max secs (1 / 10) = interval.secs := F64.fin.inj (fromSecsF64_secs hi)
  have hpub : Spaced interval.secs (Sampler.publishTimes es) := by
    refine (hr.hist (P := Sampler.Pulse interval.secs) ?_ ?_).spaced
    · have hzero : SpacedBy interval.secs [0] interval.secs :=
        (SpacedBy.none.start interval.nonneg le_rfl).wait (by linarith)
      exact ⟨hzero, hzero.spaced⟩
    · intro es e s s' _ h hs
      exact Sampler.pulse_step h hs
  refine ⟨hpub, fun a b hab => ?_, fun pub hp =>
    ⟨(Sampler.beats_of_reaches Sampler.isClock_net hnet hr).published pub hp,
      (Sampler.beats_of_reaches Sampler.isClock_disk hdisk hr).published pub hp⟩⟩
  calc (((Sampler.publishTimes es).filter fun t => a ≤ t ∧ t ≤ b).length : ℚ)
      ≤ (b - a) / (1 / 10) + 1 :=
        (hpub.mono (hmax ▸ le_max_right _ _)).length_window_le (by norm_num) hab
    _ = 10 * (b - a) + 1 := by ring

def quietAt (t : ℚ) : Reading := { Reading.quiet with netNow := t, diskIo := ⟨t, none, none⟩ }

/-- A tick that is late, one that panics, and one after the rebuild. -/
def lateTicks : List (ℚ × SamplerEvent) :=
  [(3 / 2, .wake), (8 / 5, .refreshed (quietAt (3 / 2))), (2, .joined), (3, .wake),
    (3, .refreshPanics ⟨some "root", some "unknown", some false⟩), (16 / 5, .rebuilt .quiet),
    (21 / 5, .wake), (21 / 5, .refreshed (quietAt (21 / 5))), (9 / 2, .joined)]

theorem sampler_paced_lateTicks : ∃ interval s, Sampler.intervalOf 1 = some interval ∧
    (timedSampler .unwind quietToVec interval .quiet .quiet).Reaches lateTicks s ∧
      Sampler.publishTimes lateTicks = [0, 2, 9 / 2] ∧ Spaced 1 (Sampler.publishTimes lateTicks) ∧
      s.state.published.map (fun p => p.life.length) = [1, 2, 1] := by
  have hi : Sampler.intervalOf 1 = some second := by
    with_unfolding_all rfl
  have hrun : ∃ s, (timedSampler .unwind quietToVec second .quiet .quiet).Reaches lateTicks s ∧
      s.state.published.map (fun p => p.life.length) = [1, 2, 1] := by
    with_unfolding_all exact ⟨_, rfl, rfl⟩
  obtain ⟨s, hr, hl⟩ := hrun
  exact ⟨_, s, hi, hr, rfl, (sampler_paced hi le_rfl le_rfl hr).1, hl⟩

end Vigil

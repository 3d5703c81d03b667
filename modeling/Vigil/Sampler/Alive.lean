import Vigil.Sampler.Publish

/-!
# Whether the sampler dies

A panic in the refresh is contained by the blocking pool, and the task rebuilds
its state; a panic in the rebuild, on the task itself, is not. Both hold under
`panic = "unwind"` only: the release profile says `abort`, and `sampler_dies_iff`
that there any panic is the end. `keepsTicking_iff_fatal` is the statement for
both strategies.
-/

namespace Vigil

open Vigil.Lib Vigil.Metrics

def SamplerEvent.Panics : SamplerEvent → Prop
  | .refreshPanics _ | .rebuildPanics => True
  | _ => False

/-- A panic that nothing contains under the strategy. -/
def SamplerEvent.Fatal : PanicStrategy → SamplerEvent → Prop
  | .abort, e => e.Panics
  | .unwind, .rebuildPanics => True
  | .unwind, _ => False

theorem SamplerEvent.not_fatal {strategy : PanicStrategy} {e : SamplerEvent} (h : ¬ e.Panics) :
    ¬ e.Fatal strategy := by
  cases strategy with
  | abort => exact h
  | unwind =>
    cases e with
    | rebuildPanics => exact absurd trivial h
    | wake | refreshed _ | refreshPanics _ | joined | rebuilt _ | stop | read _ _ => exact id

/-- The task has its state, or waits for it. -/
def TickTask.AtWork : TickTask → Prop
  | .sleeping st => st.isSome
  | .refreshing _ | .joining _ => True
  | .stopped | .panicked => False

namespace Sampler

variable {strategy : PanicStrategy} {ser : ToVec} {seed first : Reading} {s s' : Sampler}

/-- The process runs, the tick task has not ended, and when it sleeps the next wake starts a
refresh. -/
structure Ticking (strategy : PanicStrategy) (ser : ToVec) (s : Sampler) : Prop where
  running : s.aborted = false
  task : s.task ≠ .panicked
  wakes : ∀ st, s.task = .sleeping st →
    ∃ s' owned, s.step strategy ser .wake = some s' ∧ s'.task = .refreshing owned

def KeepsTicking (strategy : PanicStrategy) (ser : ToVec) (s : Sampler) : Prop :=
  s.task = .stopped ∨ s.Ticking strategy ser

theorem ticking_iff (hn : s.task ≠ .stopped) :
    s.Ticking strategy ser ↔ s.aborted = false ∧ s.task.AtWork := by
  constructor
  · rintro ⟨ha, hp, hw⟩
    refine ⟨ha, ?_⟩
    cases ht : s.task with
    | sleeping st =>
      cases st with
      | some st => rfl
      | none =>
        obtain ⟨s', owned, hs, ho⟩ := hw none ht
        simp only [step, ha, ht, Bool.false_eq_true, if_false, Option.some.injEq] at hs
        subst hs
        cases strategy <;> simp [panic, ht] at ho
    | refreshing _ | joining _ => trivial
    | stopped => exact absurd ht hn
    | panicked => exact absurd ht hp
  · rintro ⟨ha, hw⟩
    refine ⟨ha, ?_, ?_⟩
    · intro ht
      rw [ht] at hw
      exact hw
    · intro st ht
      rw [ht] at hw
      obtain ⟨st, rfl⟩ := Option.isSome_iff_exists.mp hw
      exact ⟨{ s with task := .refreshing st }, st, by simp [step, ha, ht], rfl⟩

theorem keepsTicking_of_atWork (ha : s.aborted = false) (hw : s.task.AtWork) :
    s.KeepsTicking strategy ser := by
  by_cases hn : s.task = .stopped
  · exact .inl hn
  · exact .inr ((ticking_iff hn).mpr ⟨ha, hw⟩)

/-- A panic on the task itself is the end under either strategy. -/
theorem not_keepsTicking_panic (ht : s.task ≠ .stopped) :
    ¬ (s.panic strategy).KeepsTicking strategy ser := by
  cases strategy with
  | unwind =>
    rintro (h | h)
    · cases h
    · exact h.task rfl
  | abort =>
    rintro (h | h)
    · exact ht h
    · exact absurd h.running (by simp [panic])

/-- From a sampler that ticks, a step leads to one that ticks unless it is fatal. -/
theorem keepsTicking_step {e : SamplerEvent} (h : s.KeepsTicking strategy ser)
    (hs : s.step strategy ser e = some s') : s'.KeepsTicking strategy ser ↔ ¬ e.Fatal strategy := by
  obtain ⟨ha, hm⟩ := step_moves hs
  have hwork : s.task ≠ .stopped → s.task.AtWork := fun hn =>
    ((ticking_iff hn).mp (h.resolve_left hn)).2
  cases hm with
  | wake _ _ | refreshed _ _ _ =>
    exact iff_of_true (keepsTicking_of_atWork ha trivial) (SamplerEvent.not_fatal id)
  | joined _ _ _ | rebuilt _ _ =>
    exact iff_of_true (keepsTicking_of_atWork ha rfl) (SamplerEvent.not_fatal id)
  | expect ht =>
    have := hwork (by simp [ht])
    rw [ht] at this
    cases this
  | failed owned g ht hg hu =>
    subst hu
    exact iff_of_true (keepsTicking_of_atWork ha trivial) id
  | abort owned g ht hab =>
    subst hab
    refine iff_of_false ?_ (fun hn => hn trivial)
    rintro (h | h)
    · simp [ht] at h
    · exact absurd h.running (by simp)
  | rebuildPanics ht =>
    exact iff_of_false (not_keepsTicking_panic (by simp [ht]))
      (fun hn => hn (by cases strategy <;> trivial))
  | stop => exact iff_of_true (.inl rfl) (SamplerEvent.not_fatal id)
  | read client ep =>
    refine iff_of_true ?_ (SamplerEvent.not_fatal id)
    by_cases hn : s.task = .stopped
    · exact .inl hn
    · exact keepsTicking_of_atWork ha (hwork hn)

theorem keepsTicking_start (ser : ToVec) (seed first : Reading) :
    (start ser seed first).KeepsTicking strategy ser := keepsTicking_of_atWork rfl rfl

/-- Under either strategy the sampler ticks until it is stopped exactly when no step is fatal. -/
theorem keepsTicking_iff_fatal {es : List SamplerEvent}
    (hr : (sampler strategy ser seed first).Reaches es s) :
    (sampler strategy ser seed first).Always (KeepsTicking strategy ser) es ↔
      (sampler strategy ser seed first).EachStep (fun _ e => ¬ e.Fatal strategy) es :=
  Machine.always_iff_eachStep (keepsTicking_start ser seed first)
    (fun _ _ _ _ _ h hs => keepsTicking_step h hs) hr

end Sampler

/-- **When the sampler of the release build dies.** Before it is stopped it is alive and starts a
refresh at each wake, at every point of a run, exactly when no refresh and no rebuild panics. -/
theorem sampler_dies_iff {ser : ToVec} {seed first : Reading} {es : List SamplerEvent}
    {s : Sampler} (hr : (sampler .abort ser seed first).Reaches es s) :
    (sampler .abort ser seed first).Always (Sampler.KeepsTicking .abort ser) es ↔
      ∀ e ∈ es, ¬ e.Panics := by
  rw [Sampler.keepsTicking_iff_fatal hr]
  constructor
  · intro h e he
    obtain ⟨fs, gs, rfl⟩ := List.append_of_mem he
    obtain ⟨t, ht, -⟩ := hr.split
    exact h fs e t ⟨gs, by simp⟩ ht
  · intro h fs e t hp _
    exact h e (hp.subset (List.mem_append_right _ (List.mem_singleton_self e)))

def firstPanic : List SamplerEvent :=
  [.wake, .refreshPanics ⟨some "root", some "unknown", some false⟩]

theorem firstPanic_aborts :
    ∃ s, (sampler .abort quietToVec .quiet .quiet).Reaches firstPanic s ∧ s.aborted = true ∧
      ¬ s.KeepsTicking .abort quietToVec := by
  have hrun : ∃ s, (sampler .abort quietToVec .quiet .quiet).Reaches firstPanic s ∧
      s.aborted = true ∧ ∃ st, s.task = .refreshing st := by
    with_unfolding_all exact ⟨_, rfl, rfl, _, rfl⟩
  obtain ⟨s, hr, ha, st, ht⟩ := hrun
  refine ⟨s, hr, ha, ?_⟩
  rintro (h | h)
  · simp [ht] at h
  · exact absurd h.running (by simp [ha])

theorem sampler_dies_iff_twoTicks :
    ∃ s, (sampler .abort quietToVec .quiet .quiet).Reaches
        [.wake, .refreshed .quiet, .joined, .wake, .refreshed .quiet, .joined] s ∧
      s.KeepsTicking .abort quietToVec := by
  have hrun : ∃ s, (sampler .abort quietToVec .quiet .quiet).Reaches
      [.wake, .refreshed .quiet, .joined, .wake, .refreshed .quiet, .joined] s := by
    with_unfolding_all exact ⟨_, rfl⟩
  obtain ⟨s, hr⟩ := hrun
  exact ⟨s, hr, ((sampler_dies_iff hr).mpr (by simp [SamplerEvent.Panics])).last hr⟩

end Vigil

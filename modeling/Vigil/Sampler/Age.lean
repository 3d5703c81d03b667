import Vigil.Lib.Progress
import Vigil.Sampler.Alive
import Vigil.Sampler.Paced
import Vigil.Sampler.Tiers

/-!
# The age of what is served

The cadences of `refresh` count ticks. Here they become seconds: `Prompt lag work`
says of a run that no sleep ends more than `lag` late and that no tick, from its
wake-up to its publication or to the rebuild, takes longer than `work`. Then
`served_age` bounds how old the parts of the served snapshot are, by one, 5 and
60 periods and one more for each tick that has failed since.
-/

namespace Vigil

open Vigil.Lib Vigil.Metrics

namespace Sampler

/-- When the task goes on, at the latest: out of its sleep, or out of its tick. -/
def deadline (lag work : ℚ) (s : Timed Sampler TickTimes) : Option ℚ :=
  match s.state.task with
  | .sleeping _ => some (s.mem.wakeAt + lag)
  | .refreshing _ | .joining _ => some (s.mem.woke + work)
  | .stopped | .panicked => none

/-- The event happens before the task is late or slow. -/
def Prompt (lag work : ℚ) (s : Timed Sampler TickTimes) (e : ℚ × SamplerEvent) : Prop :=
  ∀ d ∈ deadline lag work s, e.1 ≤ d

instance (lag work : ℚ) (s : Timed Sampler TickTimes) (e : ℚ × SamplerEvent) :
    Decidable (Prompt lag work s e) :=
  inferInstanceAs (Decidable (∀ d ∈ deadline lag work s, e.1 ≤ d))

def publishedAt (es : List (ℚ × SamplerEvent)) : ℚ :=
  es.foldl (fun t e => match e.2 with | .joined => e.1 | _ => t) 0

/-- The ticks that have failed since the last publication. -/
def misses (es : List (ℚ × SamplerEvent)) : Nat :=
  es.foldl (fun n e => match e.2 with | .joined => 0 | .rebuilt _ => n + 1 | _ => n) 0

theorem publishedAt_snoc (es : List (ℚ × SamplerEvent)) (e : ℚ × SamplerEvent) :
    publishedAt (es ++ [e]) = match e.2 with | .joined => e.1 | _ => publishedAt es := by
  rw [publishedAt, List.foldl_append]
  rfl

theorem misses_snoc (es : List (ℚ × SamplerEvent)) (e : ℚ × SamplerEvent) :
    misses (es ++ [e]) =
      match e.2 with | .joined => 0 | .rebuilt _ => misses es + 1 | _ => misses es := by
  rw [misses, List.foldl_append]
  rfl

theorem publishedAt_of_not_endsTick (es : List (ℚ × SamplerEvent)) (t : ℚ) {e : SamplerEvent}
    (he : endsTick e = false) : publishedAt (es ++ [(t, e)]) = publishedAt es := by
  rw [publishedAt_snoc]
  cases e with
  | joined | rebuilt r => cases he
  | wake | refreshed | refreshPanics | rebuildPanics | stop | read => rfl

theorem misses_of_not_endsTick (es : List (ℚ × SamplerEvent)) (t : ℚ) {e : SamplerEvent}
    (he : endsTick e = false) : misses (es ++ [(t, e)]) = misses es := by
  rw [misses_snoc]
  cases e with
  | joined | rebuilt r => cases he
  | wake | refreshed | refreshPanics | rebuildPanics | stop | read => rfl

def period (interval : Duration) (lag work : ℚ) : ℚ := interval.secs + lag + work

variable {strategy : PanicStrategy} {ser : ToVec} {interval : Duration} {seed first : Reading}
variable {s s' : Timed Sampler TickTimes} {e : ℚ × SamplerEvent} {lag work : ℚ}

theorem Prompt.sleeping (hp : Prompt lag work s e) {st : Option SamplerState}
    (ht : s.state.task = .sleeping st) : e.1 ≤ s.mem.wakeAt + lag :=
  hp _ (by rw [deadline, ht]; rfl)

theorem Prompt.refreshing (hp : Prompt lag work s e) {owned : SamplerState}
    (ht : s.state.task = .refreshing owned) : e.1 ≤ s.mem.woke + work :=
  hp _ (by rw [deadline, ht]; rfl)

theorem Prompt.joining (hp : Prompt lag work s e) {res : Option (Snapshot × SamplerState)}
    (ht : s.state.task = .joining res) : e.1 ≤ s.mem.woke + work :=
  hp _ (by rw [deadline, ht]; rfl)

/-! ## When the next publication is due -/

/-- The task is not behind its deadline `due`, and keeps it if it stays prompt. -/
def TaskDue (lag work : ℚ) (s : Timed Sampler TickTimes) (due : ℚ) : Prop :=
  match s.state.task with
  | .sleeping (some _) => s.now ≤ s.mem.wakeAt + lag ∧ s.mem.wakeAt + lag + work ≤ due
  | .refreshing _ | .joining _ => s.now ≤ s.mem.woke + work ∧ s.mem.woke + work ≤ due
  | .sleeping none | .stopped | .panicked => True

/-- A period after the last publication, and one more for each tick that failed. -/
def dueAt (interval : Duration) (lag work : ℚ) (es : List (ℚ × SamplerEvent)) : ℚ :=
  publishedAt es + (misses es + 1) * period interval lag work

theorem dueAt_joined (es : List (ℚ × SamplerEvent)) (t : ℚ) :
    dueAt interval lag work (es ++ [(t, .joined)]) = t + period interval lag work := by
  rw [dueAt, publishedAt_snoc, misses_snoc]
  simp

theorem dueAt_rebuilt (es : List (ℚ × SamplerEvent)) (t : ℚ) (r : Reading) :
    dueAt interval lag work (es ++ [(t, .rebuilt r)]) =
      dueAt interval lag work es + period interval lag work := by
  rw [dueAt, dueAt, publishedAt_snoc, misses_snoc]
  push_cast
  ring

theorem dueAt_of_not_endsTick (es : List (ℚ × SamplerEvent)) (t : ℚ) {e : SamplerEvent}
    (he : endsTick e = false) :
    dueAt interval lag work (es ++ [(t, e)]) = dueAt interval lag work es := by
  rw [dueAt, dueAt, publishedAt_of_not_endsTick es t he, misses_of_not_endsTick es t he]

theorem due_step (hlag : 0 ≤ lag) (hwork : 0 ≤ work) {es : List (ℚ × SamplerEvent)}
    (hp : Prompt lag work s e) (h : TaskDue lag work s (dueAt interval lag work es))
    (hs : (timedSampler strategy ser interval seed first).step s e = some s') :
    TaskDue lag work s' (dueAt interval lag work (es ++ [e])) := by
  have hpos := interval.nonneg
  unfold TaskDue at h
  obtain ⟨-, hmoves⟩ := timed_moves hs
  obtain ⟨t, e⟩ := e
  have hother : endsTick e = false →
      dueAt interval lag work (es ++ [(t, e)]) = dueAt interval lag work es := fun he =>
    dueAt_of_not_endsTick es t he
  cases hmoves with
  | wake u st htask _ hu =>
    have hle := hp.sleeping htask
    rw [htask] at h
    simp only [TaskDue, hu, hother rfl]
    exact ⟨by linarith, by linarith [h.2]⟩
  | refreshed u owned r res htask _ hu =>
    rw [htask] at h
    simp only [TaskDue, hu, hother rfl]
    exact ⟨hp.refreshing htask, h.2⟩
  | failed u owned g htask hu =>
    rw [htask] at h
    simp only [TaskDue, hu, hother rfl]
    exact ⟨hp.refreshing htask, h.2⟩
  | joined u snap st htask hu =>
    simp only [TaskDue, hu, dueAt_joined, period]
    exact ⟨by linarith, by linarith⟩
  | rebuilt u r htask hu =>
    have hle := hp.joining htask
    rw [htask] at h
    simp only [TaskDue, hu, dueAt_rebuilt, period]
    exact ⟨by linarith, by linarith [h.2]⟩
  | halts e u m he hu => rcases hu with hu | hu | hu <;> simp only [TaskDue, hu]
  | stays e u he hu =>
    simp only [TaskDue, hu, hother he]
    cases htask : s.state.task with
    | sleeping st =>
      rw [htask] at h
      cases st with
      | none => trivial
      | some st => exact ⟨hp.sleeping htask, h.2⟩
    | refreshing owned =>
      rw [htask] at h
      exact ⟨hp.refreshing htask, h.2⟩
    | joining res =>
      rw [htask] at h
      exact ⟨hp.joining htask, h.2⟩
    | stopped | panicked => trivial

/-! ## When the refreshes have read the clock -/

/-- The refreshes of the present life have read the clock a period apart or less, the last one not
long before the task went on. -/
def TaskRecent (clock : Reading → ℚ) (interval : Duration) (lag work : ℚ)
    (s : Timed Sampler TickTimes) : Prop :=
  let p := period interval lag work
  match s.state.task with
  | .sleeping (some _) => Recent p (times clock s.state.life) (s.mem.wakeAt + lag - p)
  | .refreshing _ => Recent p (times clock s.state.life) (s.mem.woke - p)
  | .joining (some _) => Recent p (times clock s.state.life) s.mem.woke
  | .sleeping none | .joining none | .stopped | .panicked => True

structure Aging (clock : Reading → ℚ) (interval : Duration) (lag work : ℚ)
    (es : List (ℚ × SamplerEvent)) (s : Timed Sampler TickTimes) : Prop where
  task : TaskRecent clock interval lag work s
  last : ∃ p, s.state.published.getLast? = some p ∧
    Recent (period interval lag work) (times clock p.life) (publishedAt es - work)

theorem aging_start {clock : Reading → ℚ} (hc : -work ≤ clock first) :
    Aging clock interval lag work [] (timedSampler strategy ser interval seed first).init := by
  let p := period interval lag work
  have hfirst : ∀ {t}, t ≤ clock first → Recent p [clock first] t := by
    intro t ht
    have := (Recent.nil (p := p) (t := t - p)).snoc (x := clock first) (by rwa [sub_add_cancel])
    rwa [sub_add_cancel] at this
  refine ⟨hfirst ?_, _, rfl, hfirst ?_⟩
  · show interval.secs + lag - period interval lag work ≤ _
    rw [period]
    linarith
  · show (0 : ℚ) - work ≤ _
    linarith

theorem aging_step {clock : Reading → ℚ} (hc : IsClock clock) {es : List (ℚ × SamplerEvent)}
    (hp : Prompt lag work s e) (h : Aging clock interval lag work es s)
    (hs : (timedSampler strategy ser interval seed first).step s e = some s') :
    Aging clock interval lag work (es ++ [e]) s' := by
  have ht := h.task
  unfold TaskRecent at ht
  obtain ⟨-, hmoves⟩ := timed_moves hs
  -- every event but a publication leaves the last one as it is
  have hlast : ∀ {u : Sampler}, u.published = s.state.published →
      publishedAt (es ++ [e]) = publishedAt es → ∃ p, u.published.getLast? = some p ∧
        Recent (period interval lag work) (times clock p.life) (publishedAt (es ++ [e]) - work) :=
    fun hpub hat => by rw [hpub, hat]; exact h.last
  obtain ⟨t, e⟩ := e
  cases hmoves with
  | wake u st htask _ hu hlife hpub =>
    have hle := hp.sleeping htask
    rw [htask] at ht
    refine ⟨?_, hlast hpub (publishedAt_snoc es _)⟩
    simp only [TaskRecent, hu, hlife]
    exact ht.mono (sub_le_sub_right hle _)
  | refreshed u owned r res htask hread hu hlife hpub =>
    rw [htask] at ht
    refine ⟨?_, hlast hpub (publishedAt_snoc es _)⟩
    have hsnoc := ht.snoc (x := clock r) (by rw [sub_add_cancel]; exact (hc r _ _ hread).1)
    rw [sub_add_cancel] at hsnoc
    simp only [TaskRecent, hu, hlife, times_snoc]
    exact hsnoc
  | failed u owned g htask hu hpub =>
    refine ⟨?_, hlast hpub (publishedAt_snoc es _)⟩
    simp only [TaskRecent, hu]
  | joined u snap st htask hu hlife hpub =>
    have hle : t ≤ s.mem.woke + work := hp.joining htask
    rw [htask] at ht
    refine ⟨?_, ⟨snap, s.state.life⟩, by rw [hpub, List.getLast?_concat], ht.mono ?_⟩
    · simp only [TaskRecent, hu, hlife]
      refine ht.mono ?_
      rw [period]
      linarith
    · show publishedAt (es ++ [(t, .joined)]) - work ≤ _
      rw [publishedAt_snoc]
      dsimp only
      linarith
  | rebuilt u r htask hu hlife hpub =>
    refine ⟨?_, hlast hpub (publishedAt_snoc es _)⟩
    simp only [TaskRecent, hu, hlife]
    exact .nil
  | halts e u m he hu hpub =>
    refine ⟨?_, hlast hpub (publishedAt_of_not_endsTick es t he)⟩
    rcases hu with hu | hu | hu <;> simp only [TaskRecent, hu]
  | stays e u he hu hlife hpub =>
    refine ⟨?_, hlast hpub (publishedAt_of_not_endsTick es t he)⟩
    simp only [TaskRecent, hu, hlife]
    split at ht <;> exact ht

theorem now_le_due {due : ℚ} (hwork : 0 ≤ work) (h : TaskDue lag work s due)
    (hw : s.state.task.AtWork) : s.now ≤ due := by
  unfold TaskDue at h
  split at h
  · linarith [h.1, h.2]
  · linarith [h.1, h.2]
  · linarith [h.1, h.2]
  · next htask => rw [htask] at hw; cases hw
  · next htask => rw [htask] at hw; exact hw.elim
  · next htask => rw [htask] at hw; exact hw.elim

section Runs

variable {es : List (ℚ × SamplerEvent)}

theorem due_of_prompt (hlag : 0 ≤ lag) (hwork : 0 ≤ work)
    (he : (timedSampler strategy ser interval seed first).EachStep (Prompt lag work) es)
    (hr : (timedSampler strategy ser interval seed first).Reaches es s) :
    TaskDue lag work s (dueAt interval lag work es) := by
  refine he.hist (P := fun es s => TaskDue lag work s (dueAt interval lag work es)) ?_
    (fun _ _ _ _ _ hp h hs => due_step hlag hwork hp h hs) hr
  refine ⟨?_, le_of_eq ?_⟩
  · show (0 : ℚ) ≤ interval.secs + lag
    linarith [interval.nonneg]
  · simp [dueAt, publishedAt, misses, period, timedSampler, Machine.timed, samplerClock]

theorem aging_of_prompt {clock : Reading → ℚ} (hc : IsClock clock)
    (hfirst : first.clockIn (-work) 0 = true)
    (he : (timedSampler strategy ser interval seed first).EachStep (Prompt lag work) es)
    (hr : (timedSampler strategy ser interval seed first).Reaches es s) :
    Aging clock interval lag work es s :=
  he.hist (P := Aging clock interval lag work) (aging_start (hc _ _ _ hfirst).1)
    (fun _ _ _ _ _ hp h hs => aging_step hc hp h hs) hr

end Runs

end Sampler

/-- The reading is from `t` or later, by both of its clocks. -/
def Metrics.Reading.Since (t : ℚ) (r : Reading) : Prop := t ≤ r.netNow ∧ t ≤ r.diskIo.now

/-- The age that `n` periods come to, with a period more for each tick that failed. -/
def ageOf (interval : Duration) (lag work : ℚ) (es : List (ℚ × SamplerEvent)) (n : Nat) : ℚ :=
  work + (Sampler.misses es + n) * Sampler.period interval lag work

/-- **What is served is recent.** In every run whose ticks are prompt, while the sampler is at
work, the slots show a snapshot whose counters were read no more than a period and a tick's work
ago, whose process tables are from a scan within 5 such periods, and whose mount table was listed
within 60; each tick that has failed since adds a period. -/
theorem served_age {strategy : PanicStrategy} {ser : ToVec} {interval : Duration}
    {seed first : Reading} {lag work : ℚ} (ht : ser.Total) (hlag : 0 ≤ lag) (hwork : 0 ≤ work)
    (hfirst : first.clockIn (-work) 0 = true) {es : List (ℚ × SamplerEvent)}
    {s : Timed Sampler TickTimes}
    (he : (timedSampler strategy ser interval seed first).EachStep (Sampler.Prompt lag work) es)
    (hr : (timedSampler strategy ser interval seed first).Reaches es s)
    (hw : s.state.task.AtWork) :
    ∃ p, s.state.published.getLast? = some p ∧ s.state.SlotsShow ser p.snap ∧
      (∃ x, p.life.getLast? = some x ∧
        x.reading.Since (s.now - ageOf interval lag work es 1)) ∧
      (∃ x ∈ p.life, p.snap.scan = x.scan ∧
        x.reading.Since (s.now - ageOf interval lag work es 5)) ∧
      ∃ x ∈ p.life, ∃ last, p.life.getLast? = some last ∧
        p.snap.disk = collectRoot last.reading x.reading.mounts ∧
        p.snap.disks = collectAll last.reading x.reading.mounts ∧
        x.reading.Since (s.now - ageOf interval lag work es 60) := by
  have hper : 0 ≤ Sampler.period interval lag work :=
    add_nonneg (add_nonneg interval.nonneg hlag) hwork
  have hnow := Sampler.now_le_due hwork (Sampler.due_of_prompt hlag hwork he hr) hw
  obtain ⟨p, hp, hshow⟩ := Sampler.current_of_reaches ht hr.untimed
  obtain ⟨⟨j, hj, x, hx, -, hscan⟩, i, hi, y, last, hy, hlast, -, hroot, hall⟩ : p.Fresh :=
    (Sampler.tiered_of_reaches hr.untimed).published p (List.mem_of_getLast? hp)
  have hclock : ∀ {clock : Reading → ℚ} {k n : Nat} {z : Refresh}, Sampler.IsClock clock → k < n →
      p.life.reverse[k]? = some z → s.now - ageOf interval lag work es n ≤ clock z.reading := by
    intro clock k n z hc hk hz
    obtain ⟨q, hq, hrecent⟩ := (Sampler.aging_of_prompt hc hfirst he hr).last
    obtain rfl : p = q := Option.some.inj (hp.symm.trans hq)
    have hread : (Sampler.times clock p.life).reverse[k]? = some (clock z.reading) := by
      rw [Sampler.times, ← List.map_reverse, List.getElem?_map, hz]
      rfl
    have hlast := hrecent k _ hread
    have hkn : ((k : ℚ) + 1) * Sampler.period interval lag work ≤
        n * Sampler.period interval lag work :=
      mul_le_mul_of_nonneg_right (by exact_mod_cast hk) hper
    rw [Sampler.dueAt] at hnow
    rw [ageOf]
    linarith
  have hsince : ∀ {k n : Nat} {z : Refresh}, k < n → p.life.reverse[k]? = some z →
      z.reading.Since (s.now - ageOf interval lag work es n) := fun hk hz =>
    ⟨hclock Sampler.isClock_net hk hz, hclock Sampler.isClock_disk hk hz⟩
  have hmem : ∀ {k : Nat} {z : Refresh}, p.life.reverse[k]? = some z → z ∈ p.life := fun hz =>
    List.mem_reverse.mp (List.mem_of_getElem? hz)
  refine ⟨p, hp, hshow, ⟨last, hlast, hsince (k := 0) Nat.one_pos ?_⟩,
    ⟨x, hmem hx, hscan, hsince (Nat.lt_succ_of_le hj) hx⟩,
    y, hmem hy, last, hlast, hroot, hall, hsince (Nat.lt_succ_of_le hi) hy⟩
  rw [← List.head?_eq_getElem?, List.head?_reverse]
  exact hlast

/-- A tick, one that panics and is rebuilt, and a round of the hub before the next. -/
def promptTicks : List (ℚ × SamplerEvent) :=
  [(1, .wake), (5 / 4, .refreshed (quietAt (5 / 4))), (5 / 4, .joined), (9 / 4, .wake),
    (9 / 4, .refreshPanics ⟨some "root", some "unknown", some false⟩), (5 / 2, .rebuilt .quiet),
    (3, .read 0 .hub)]

theorem served_age_promptTicks :
    ∃ s p, (timedSampler .unwind quietToVec second .quiet .quiet).Reaches promptTicks s ∧
      s.now = 3 ∧ s.state.published.getLast? = some p ∧ s.state.SlotsShow quietToVec p.snap ∧
      ∃ x, p.life.getLast? = some x ∧ x.reading.Since (1 / 4) := by
  have hrun : ∃ s, (timedSampler .unwind quietToVec second .quiet .quiet).Reaches promptTicks s ∧
      s.now = 3 ∧ s.state.task.AtWork := by
    with_unfolding_all exact ⟨_, rfl, rfl, rfl⟩
  have hcheck : (timedSampler .unwind quietToVec second .quiet .quiet).check
      (Sampler.Prompt 0 (1 / 4)) (timedSampler .unwind quietToVec second .quiet .quiet).init
      promptTicks = true := by
    decide +kernel
  obtain ⟨s, hr, hnow, hw⟩ := hrun
  have hquiet : Reading.quiet.clockIn (-(1 / 4)) 0 = true := by
    decide +kernel
  obtain ⟨p, hp, hshow, ⟨x, hx, hsince⟩, -⟩ := served_age quietToVec_total le_rfl (by norm_num)
    hquiet (Machine.guarded_of_check hcheck) hr hw
  have hage : s.now - ageOf second 0 (1 / 4) promptTicks 1 = 1 / 4 := by
    rw [hnow]
    norm_num [ageOf, Sampler.misses, promptTicks, Sampler.period, second]
  exact ⟨s, p, hr, hnow, hp, hshow, x, hx, hage ▸ hsince⟩

end Vigil

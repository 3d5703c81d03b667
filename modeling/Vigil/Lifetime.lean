import Vigil.Runtime
import Vigil.Sampler.Alive

/-!
# What ends the process

In the release build a panic anywhere on the runtime's thread or on the blocking
pool is the end of the process, and `main` returns on a signal. `process_alive_iff`
lists what it takes: in any run the process serves on and all its tasks are alive
exactly as long as there is no shutdown, no panic of a refresh or a rebuild, no
welcome and no probe timeout of `2^64` seconds or more.
-/

namespace Vigil

open Vigil.Lib Vigil.Metrics

/-! ## When the hub task dies -/

namespace Hub

variable {cl : Client}

/-- **A session panics on one message only.** -/
theorem Conn.panics_iff {k k' : Conn} {e : ConnEvent} (hi : Conn.Inv cl k)
    (h : k.step cl e = some k') : k'.state = .panicked ↔
      ∃ m r, k.state = .awaitingWelcome ∧ e = .recv m r ∧ cl.IntervalTooLong m := by
  cases hi with
  | hello =>
    refine iff_of_false ?_ (by rintro ⟨_, _, hs, _⟩; cases hs)
    cases e with
    | sent | sendFailed e wrote => cases h; exact fun h => by cases h
    | recv m r | slept r | stopped => cases h
  | awaiting =>
    cases e with
    | recv m r =>
      cases h
      have hp : (Conn.welcome cl ⟨.awaitingWelcome, [.hello cl.hello], [], [], false⟩ m r).state =
          .panicked ↔ (cl.awaitWelcome m).isPanic = true := by
        unfold welcome
        split
        · next d hd =>
          rw [hd]
          simpa using not_panicked_of_fits (fits_loopTop (c := cl) d r)
        · next hd => rw [hd]; simp
        · next hd => rw [hd]; simp
      rw [hp, cl.awaitWelcome_isPanic m]
      constructor
      · exact fun hl => ⟨m, r, rfl, rfl, hl⟩
      · rintro ⟨_, _, -, he, hl⟩
        cases he
        exact hl
    | sent | sendFailed e wrote | slept r | stopped => cases h
  | pushing st m ms rs r w hm hms hf ho =>
    refine iff_of_false (not_panicked_of_pushing (c := cl) hf h) ?_
    rintro ⟨_, _, hs, _⟩
    obtain rfl : st = .awaitingWelcome := hs
    exact hf.elim
  | ended _ ho _ _ _ => rw [step_of_over ho] at h; cases h

namespace Task

variable {h h' : Task}

theorem isDead_settle (k : Conn) : (h.settle cl k).isDead = true ↔ k.state = .panicked := by
  unfold settle
  split
  · next hs => simp [isDead, sessionOver, hs]
  · next hs => simp [isDead, hs]
  · next hp => simpa [isDead] using fun hs => hp hs

/-- The hub task dies of a session that panics, and of nothing else. -/
theorem dead_step {seed : Snapshot} {es : List HubEvent} {e : HubEvent}
    (hr : (hub cl seed).Reaches es h) (hd : h.isDead = false) (hs : h.step cl e = some h') :
    h'.isDead = true ↔ ∃ k m ts, h.ctl = .connected k ∧ k.state = .awaitingWelcome ∧
      e = .wire (.recv m ts) ∧ cl.IntervalTooLong m := by
  have hconns := connsInv_of_reaches hr
  have hback := backoffInv_of_reaches hr
  cases step_moves hs with
  | publish s =>
    refine iff_of_false (by simpa [isDead] using hd) ?_
    rintro ⟨_, _, _, _, _, he, _⟩
    cases he
  | refused e hc =>
    refine iff_of_false (by simp [isDead, sessionOver]) ?_
    rintro ⟨_, _, _, _, _, he, _⟩
    cases he
  | connected hc =>
    refine iff_of_false ?_ (by rintro ⟨_, _, _, _, _, he, _⟩; cases he)
    rw [isDead_settle]
    unfold Conn.begin
    dsimp only
    split <;> exact fun h => by cases h
  | wire k k' w hc hk =>
    rw [isDead_settle, Conn.panics_iff (hconns k (mem_conns_connected hc)) hk]
    constructor
    · rintro ⟨m, r, hstate, he, hl⟩
      cases w with
      | recv m' ts =>
        cases he
        exact ⟨k, _, ts, hc, hstate, rfl, hl⟩
      | sent | sendFailed | slept | stopped => cases he
    · rintro ⟨k', m, ts, hc', hstate, he, hl⟩
      cases he
      obtain rfl : k = k' := Ctl.connected.inj (hc.symm.trans hc')
      exact ⟨m, _, hstate, rfl, hl⟩
  | backoffOver hc =>
    refine iff_of_false ?_ (by rintro ⟨_, _, _, _, _, he, _⟩; cases he)
    unfold BackoffInv at hback
    rw [hc] at hback
    simp [isDead, (backoffInv_grow hback).2]
  | stop | cut =>
    refine iff_of_false (by simp [isDead]) ?_
    rintro ⟨_, _, _, _, _, he, _⟩
    cases he

end Task

end Hub

/-! ## The process -/

namespace Sampler

variable {strategy : PanicStrategy} {ser : ToVec} {s s' : Sampler}

theorem ticking_step {e : SamplerEvent} (h : s.Ticking strategy ser) (hn : s.task ≠ .stopped)
    (he : e ≠ .stop) (hs : s.step strategy ser e = some s') :
    (s'.Ticking strategy ser ∧ s'.task ≠ .stopped) ↔ ¬ e.Fatal strategy := by
  have hn' : s'.task ≠ .stopped := by
    cases (step_moves hs).2 with
    | stop => exact absurd rfl he
    | abort | read => exact hn
    | expect ht | rebuildPanics ht => cases strategy <;> simp [panic, ht]
    | wake | refreshed | failed | joined | rebuilt =>
      simp only [runRefresh, publish]
      exact fun h => by cases h
  rw [← keepsTicking_step (.inr h) hs]
  exact ⟨fun ht => .inr ht.1, fun hk => ⟨hk.resolve_left hn', hn'⟩⟩

end Sampler

namespace Runtime

/-- The process runs, the sampler ticks, and the hub task is alive. -/
structure Healthy (c : Setup) (s : Runtime) : Prop where
  running : s.ended = false
  sampler : s.sampler.Ticking c.strategy c.ser ∧ s.sampler.task ≠ .stopped
  hub : ∀ h, s.hub = some h → h.isDead = false

/-- The end of the process, or of one of its tasks. -/
def Fatal (c : Setup) (s : Runtime) : RuntimeEvent → Prop
  | .shutdown => True
  | .tick e => e.Fatal c.strategy
  | .probes settings => c.strategy = .abort ∧ 2 ^ 64 ≤ settings.probeTimeout
  | .hub e => ∃ cl h k m ts, c.hub = some cl ∧ s.hub = some h ∧ h.ctl = .connected k ∧
      k.state = .awaitingWelcome ∧ e = .wire (.recv m ts) ∧ cl.IntervalTooLong m
  | .get _ _ | .ws _ | .push _ => False

variable {c : Setup} {s s' : Runtime}

theorem healthy_init : ((runtime c).init).Healthy c where
  running := rfl
  sampler := ⟨(Sampler.ticking_iff (fun h => by cases h)).mpr ⟨rfl, rfl⟩, fun h => by cases h⟩
  hub h hh := by
    obtain ⟨cl, _, rfl⟩ := Option.map_eq_some_iff.mp hh
    rfl

theorem Healthy.read {client : Nat} {e : Endpoint} {p : Sampler} (h : s.Healthy c)
    (hp : s.read c client e = some p) :
    p.Ticking c.strategy c.ser ∧ p.task ≠ .stopped :=
  (Sampler.ticking_step h.sampler.1 h.sampler.2 (fun h => by cases h) hp).mpr
    (SamplerEvent.not_fatal id)

theorem healthy_hub {es : List RuntimeEvent} (hr : (runtime c).Reaches es s) (h : s.Healthy c)
    {cl : Hub.Client} {t t' : Hub.Task} {e : Hub.HubEvent} (hcl : c.hub = some cl)
    (ht : s.hub = some t) (hs : t.step cl e = some t') :
    t'.isDead = false ↔ ¬ s.Fatal c (.hub e) := by
  obtain ⟨cl', fs, hcl', hrun⟩ := (parts_of_reaches hr).hub t ht
  obtain rfl : cl = cl' := Option.some.inj (hcl.symm.trans hcl')
  have hdead := Hub.Task.dead_step hrun (h.hub t ht) hs
  rw [← Bool.not_eq_true, not_iff_not, hdead]
  constructor
  · rintro ⟨k, m, ts, hrest⟩
    exact ⟨cl, t, k, m, ts, hcl, ht, hrest⟩
  · rintro ⟨cl', t', k, m, ts, hcl', ht', hrest⟩
    obtain rfl : cl = cl' := Option.some.inj (hcl.symm.trans hcl')
    obtain rfl : t = t' := Option.some.inj (ht.symm.trans ht')
    exact ⟨k, m, ts, hrest⟩

theorem healthy_step {es : List RuntimeEvent} (hr : (runtime c).Reaches es s) (h : s.Healthy c)
    {e : RuntimeEvent} (hs : s.step c e = some s') : s'.Healthy c ↔ ¬ s.Fatal c e := by
  have hticks : ∀ {f p}, s.sampler.step c.strategy c.ser f = some p → f ≠ .stop →
      ((p.Ticking c.strategy c.ser ∧ p.task ≠ .stopped) ↔ ¬ f.Fatal c.strategy) :=
    fun hp hf => Sampler.ticking_step h.sampler.1 h.sampler.2 hf hp
  cases step_moves hs with
  | tick f p hf _ hp =>
    have hne : f ≠ .stop := by rintro rfl; cases hf
    constructor
    · exact fun h' => (hticks hp hne).mp h'.sampler
    · exact fun hn => ⟨h.running, (hticks hp hne).mpr hn, h.hub⟩
  | publish p hp =>
    have hf : ¬ SamplerEvent.joined.Fatal c.strategy := SamplerEvent.not_fatal id
    refine iff_of_true ⟨h.running, (hticks hp (fun h => by cases h)).mpr hf, fun x hx => ?_⟩ hf
    obtain ⟨t, ht, rfl⟩ := Option.map_eq_some_iff.mp hx
    exact h.hub t ht
  | get client e p _ hp => exact iff_of_true ⟨h.running, h.read hp, h.hub⟩ id
  | probes settings =>
    have hfit := probes_timeout_isSome settings
    unfold probes
    split
    · next hnone hab =>
      rw [hnone] at hfit
      refine iff_of_false (fun h' => by cases h'.running) fun hn => hn ⟨hab, ?_⟩
      simpa using hfit
    · next hne =>
      refine iff_of_true h fun ⟨hab, hlong⟩ => hne ?_ hab
      rw [← Option.not_isSome_iff_eq_none, hfit]
      exact not_lt.mpr hlong
  | ws e w _ => exact iff_of_true ⟨h.running, h.sampler, h.hub⟩ id
  | push k e w p _ hp => exact iff_of_true ⟨h.running, h.read hp, h.hub⟩ id
  | hub cl t t' f hcl ht _ hp _ =>
    rw [← healthy_hub hr h hcl ht hp]
    constructor
    · exact fun h' => h'.hub t' rfl
    · intro hd
      refine ⟨by rw [hd]; rfl, h.sampler, ?_⟩
      rintro x ⟨⟩
      exact hd
  | round cl t t' f p hcl ht _ hp _ hread =>
    rw [← healthy_hub hr h hcl ht hp]
    constructor
    · exact fun h' => h'.hub t' rfl
    · intro hd
      refine ⟨by rw [hd]; rfl, h.read hread, ?_⟩
      rintro x ⟨⟩
      exact hd
  | shutdown => exact iff_of_false (fun h' => by cases h'.running) (fun hn => hn trivial)

end Runtime

/-- **What ends the process.** In any run the process and all its tasks are alive throughout exactly
when no step is fatal. -/
theorem process_alive_iff {c : Setup} {es : List RuntimeEvent} {s : Runtime}
    (hr : (runtime c).Reaches es s) :
    (runtime c).Always (Runtime.Healthy c) es ↔
      (runtime c).EachStep (fun s e => ¬ s.Fatal c e) es :=
  Machine.always_iff_eachStep Runtime.healthy_init
    (fun _ _ _ _ hr h hs => Runtime.healthy_step hr h hs) hr

/-- A quiet host whose hub answers with an interval of `1e20` seconds. -/
def longAnswer : List RuntimeEvent :=
  [.get 7 .system, .hub .connected, .hub (.wire .sent),
    .hub (.wire (.recv (some (.ok (.text Hub.longWelcome))) 100))]

theorem process_alive_iff_longAnswer : ∃ s, (runtime quietSetup).Reaches longAnswer s ∧
    s.ended = true ∧
      ¬ (runtime quietSetup).EachStep (fun s e => ¬ s.Fatal quietSetup e) longAnswer := by
  have hrun : ((runtime quietSetup).run (runtime quietSetup).init longAnswer).map
      (fun s => s.ended) = some true := by
    decide +kernel
  obtain ⟨s, hr, he⟩ := Option.map_eq_some_iff.mp hrun
  refine ⟨s, hr, he, fun hsteps => ?_⟩
  have hrunning := (((process_alive_iff hr).mpr hsteps).last hr).running
  rw [he] at hrunning
  cases hrunning

end Vigil

import Vigil.Lib.Machine
import Vigil.SettingsJson

/-!
# From settings to durations

`collector j home` is the process as far as its settings go: `main` reads them
once and turns two of their numbers into durations before it accepts
connections, and every `GET /probes` reads them again and converts one. The
settings directories belong to the user, who may change them at any time.

A panic aborts the process, as the release profile says (`panic = "abort"`).
What `main` does between the conversions (logging, resolving and binding the
address) is left out.
-/

namespace Vigil

open Vigil.Lib

/-- `Sampler::new`. -/
def Sampler.intervalOf (intervalSecs : ℚ) : Option Duration :=
  fromSecsF64 ((F64.fin intervalSecs).max (.fin (1 / 10)))

/-- The timeout of the client that `server::serve` builds. -/
def Server.clientTimeout (s : Settings) : Option Duration := fromSecsF64 (.fin s.probeTimeout)

/-- The timeout of `probes::run`. -/
def Probes.timeout (s : Settings) : Option Duration :=
  fromSecsF64 ((F64.fin s.probeTimeout).max (.fin (1 / 10)))

/-- The conversions `main` makes before the accept loop. -/
def boot (s : Settings) : Flow (Duration × Duration) := do
  let interval ← Flow.ofPartial (Sampler.intervalOf s.wsPushInterval)
  let timeout ← Flow.ofPartial (Server.clientTimeout s)
  pure (interval, timeout)

inductive Stage where
  | booting
  | serving (interval clientTimeout : Duration)
  | aborted

structure Collector where
  home : Home
  stage : Stage

inductive CollectorEvent where
  /-- somebody changes the settings directories -/
  | edit (h : Home)
  | boot (f : Faults)
  | probes (f : Faults)

namespace Collector

variable (j : SettingsSerde) (c : Collector)

def boot (f : Faults) : Collector :=
  let r := readSettings j c.home f
  match Vigil.boot r.1 with
  | .ok (interval, timeout) => ⟨r.2, .serving interval timeout⟩
  | .err _ | .panic => ⟨r.2, .aborted⟩

def probes (f : Faults) : Collector :=
  let r := readSettings j c.home f
  match Probes.timeout r.1 with
  | some _ => ⟨r.2, c.stage⟩
  | none => ⟨r.2, .aborted⟩

def step : CollectorEvent → Option Collector
  | .edit h => some { c with home := h }
  | .boot f =>
    match c.stage with
    | .booting => some (c.boot j f)
    | _ => none
  | .probes f =>
    match c.stage with
    | .serving _ _ => some (c.probes j f)
    | _ => none

end Collector

def collector (j : SettingsSerde) (home : Home) : Machine Collector CollectorEvent where
  init := ⟨home, .booting⟩
  step c := c.step j

/-! ## When the conversions succeed -/

theorem boot_isPanic (s : Settings) :
    (boot s).isPanic = false ↔
      s.wsPushInterval < 2 ^ 64 ∧ 0 ≤ s.probeTimeout ∧ s.probeTimeout < 2 ^ 64 := by
  have hi := fromSecsF64_max_isSome (q := s.wsPushInterval) (r := 1 / 10) (by norm_num)
    (by norm_num)
  have ht := fromSecsF64_fin_isSome (q := s.probeTimeout)
  unfold boot Sampler.intervalOf Server.clientTimeout
  rw [← hi, ← ht]
  cases fromSecsF64 ((F64.fin s.wsPushInterval).max (.fin (1 / 10))) with
  | none => simp [Flow.ofPartial]
  | some d => cases fromSecsF64 (.fin s.probeTimeout) <;> simp [Flow.ofPartial]

theorem boot_ne_err (s : Settings) (m : String) : boot s ≠ .err m := by
  unfold boot
  cases Sampler.intervalOf s.wsPushInterval with
  | none => exact fun h => by cases h
  | some d => cases Server.clientTimeout s <;> exact fun h => by cases h

theorem probes_timeout_isSome (s : Settings) :
    (Probes.timeout s).isSome ↔ s.probeTimeout < 2 ^ 64 :=
  fromSecsF64_max_isSome (by norm_num) (by norm_num)

/-- The numbers of a settings text fit the conversions at startup. -/
def SettingsSerde.BootSafe (j : SettingsSerde) (text : Option String) : Prop :=
  ∀ s cfg, text = some s → j.fromStr s = some cfg →
    cfg.wsPushInterval < 2 ^ 64 ∧ 0 ≤ cfg.probeTimeout ∧ cfg.probeTimeout < 2 ^ 64

/-- The probe timeout of a settings text fits the conversion of `GET /probes`. -/
def SettingsSerde.ProbesSafe (j : SettingsSerde) (text : Option String) : Prop :=
  ∀ s cfg, text = some s → j.fromStr s = some cfg → cfg.probeTimeout < 2 ^ 64

variable {j : SettingsSerde}

/-- What holds of the defaults holds of the settings read when it holds of the text's. -/
theorem readSettings_forall {P : Settings → Prop} (hd : P .default) (h : Home) (f : Faults) :
    P (readSettings j h f).1 ↔ ∀ s cfg, h.text f = some s → j.fromStr s = some cfg → P cfg := by
  rw [readSettings_fst]
  cases h.text f with
  | none => simp [hd]
  | some s =>
    simp only [Option.bind_some, Option.some.injEq]
    constructor
    · rintro h s' cfg rfl hs
      rwa [hs] at h
    · intro h
      cases hs : j.fromStr s with
      | none => exact hd
      | some cfg => exact h s cfg rfl hs

namespace Collector

variable {c c' : Collector}

/-- The settings text in force at an event fits the conversions the event makes. -/
def Safe (j : SettingsSerde) (c : Collector) : CollectorEvent → Prop
  | .edit _ => True
  | .boot f => j.BootSafe (c.home.text f)
  | .probes f => j.ProbesSafe (c.home.text f)

def Alive (c : Collector) : Prop := c.stage ≠ .aborted

theorem alive_boot (f : Faults) : (c.boot j f).Alive ↔ j.BootSafe (c.home.text f) := by
  have hd : (Vigil.boot .default).isPanic = false := by
    rw [boot_isPanic]
    norm_num [Settings.default, defaultWsPushInterval, defaultProbeTimeout]
  have hr := readSettings_forall (j := j) (P := fun s => (Vigil.boot s).isPanic = false) hd c.home f
  simp only [boot_isPanic] at hr
  rw [SettingsSerde.BootSafe, ← hr, ← boot_isPanic]
  unfold boot Alive
  cases hb : Vigil.boot (readSettings j c.home f).1 with
  | ok d => simp [hb]
  | err m => exact absurd hb (boot_ne_err _ m)
  | panic => simp [hb]

theorem alive_probes (f : Faults) (h : c.Alive) :
    (c.probes j f).Alive ↔ j.ProbesSafe (c.home.text f) := by
  have hd : (Probes.timeout .default).isSome := by
    rw [probes_timeout_isSome]
    norm_num [Settings.default, defaultProbeTimeout]
  have hr := readSettings_forall (j := j) (P := fun s => (Probes.timeout s).isSome) hd c.home f
  simp only [probes_timeout_isSome] at hr
  rw [SettingsSerde.ProbesSafe, ← hr, ← probes_timeout_isSome]
  unfold Alive at h
  unfold probes Alive
  cases hb : Probes.timeout (readSettings j c.home f).1 with
  | some d => simp [hb, h]
  | none => simp [hb]

/-- A step keeps the collector alive exactly when the settings text it reads is safe. -/
theorem alive_step {e : CollectorEvent} (h : c.Alive) (hs : c.step j e = some c') :
    c'.Alive ↔ c.Safe j e := by
  cases e with
  | edit h' => cases hs; exact iff_of_true h trivial
  | boot f =>
    cases hc : c.stage <;> simp only [step, hc, Option.some.injEq, reduceCtorEq] at hs
    exact hs ▸ alive_boot f
  | probes f =>
    cases hc : c.stage <;> simp only [step, hc, Option.some.injEq, reduceCtorEq] at hs
    exact hs ▸ alive_probes f h

end Collector

/-- **When the configuration stops the collector.** A run stays alive exactly when the text read at
startup has a push interval below `2^64` and a probe timeout from `0` up to there, and every text
read for `/probes` a probe timeout below `2^64`; a text that does not decode is always safe. -/
theorem config_never_stops_iff {home : Home} {es : List CollectorEvent} {c : Collector}
    (hr : (collector j home).Reaches es c) :
    (collector j home).Always Collector.Alive es ↔
      (collector j home).EachStep (Collector.Safe j) es :=
  Machine.always_iff_eachStep (fun h => by cases h)
    (fun _ _ _ _ _ h hs => Collector.alive_step h hs) hr

/-! ## A negative probe timeout -/

def negativeTimeout : String := "\x7b\"probe_timeout\":-1\x7d"

def labSettingsSerde : SettingsSerde :=
  (defaultSerde defaultText).reading negativeTimeout (.obj [("probe_timeout", .num (.negInt (-1)))])

def labHome : Home := ⟨some (.dir (some (.text negativeTimeout))), none⟩

theorem negativeTimeout_aborts :
    ∃ c, (collector labSettingsSerde labHome).Reaches [.boot .none] c ∧ c.stage = .aborted := by
  with_unfolding_all exact ⟨_, rfl, rfl⟩

theorem negativeTimeout_unsafe :
    ∃ c, (collector labSettingsSerde labHome).Reaches [.boot .none] c ∧
      ¬ (collector labSettingsSerde labHome).EachStep (Collector.Safe labSettingsSerde)
        [.boot .none] := by
  have hrun : ∃ c, (collector labSettingsSerde labHome).Reaches [.boot .none] c ∧
      c.stage = .aborted := by
    with_unfolding_all exact ⟨_, rfl, rfl⟩
  obtain ⟨c, hr, hc⟩ := hrun
  exact ⟨c, hr, fun h => ((config_never_stops_iff hr).mpr h).last hr hc⟩

end Vigil

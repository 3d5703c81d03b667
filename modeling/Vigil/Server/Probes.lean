import Vigil.Startup

/-!
# Probes

`GET /probes` sends each target of the settings a HEAD request, and a GET request
after it when HEAD is answered with 405. Both requests carry the whole timeout,
while the result is measured from the start of the first. `HttpClient` is the
client library: what a request comes to, and that it keeps to its own timeout.
-/

namespace Vigil.Probes

open Vigil.Lib

inductive Method where
  | head
  | get
  deriving DecidableEq

/-- What `send` comes to: a response with its status, or an error, which may carry one. -/
inductive Outcome where
  | response (code : Nat)
  | error (msg : String) (status : Option Nat)
  deriving DecidableEq

/-- An outcome, and the seconds it took to come. -/
structure Sent where
  outcome : Outcome
  secs : ℚ

structure HttpClient where
  send : Method → String → Duration → Sent
  nonneg : ∀ method url timeout, 0 ≤ (send method url timeout).secs
  /-- a request completes within its timeout or fails -/
  inTime : ∀ method url timeout code, (send method url timeout).outcome = .response code →
    (send method url timeout).secs ≤ timeout.secs

structure ProbeResult where
  name : String
  url : String
  ok : Bool
  statusCode : Option Nat
  latencyMs : Nat
  error : Option String
  deriving DecidableEq

/-- `started.elapsed().as_millis() as u64`. -/
def elapsedMs (secs : ℚ) : Nat := ⌊secs * 1000⌋₊ % 2 ^ 64

/-- The request a probe reports on, with the time since the probe started. -/
def lastRequest (client : HttpClient) (url : String) (timeout : Duration) : Sent :=
  let response := client.send .head url timeout
  if response.outcome = .response 405 then
    let fallback := client.send .get url timeout
    ⟨fallback.outcome, response.secs + fallback.secs⟩
  else response

def probeOne (client : HttpClient) (name url : String) (timeout : Duration) : ProbeResult :=
  let response := lastRequest client url timeout
  match response.outcome with
  | .response code =>
    { name, url, ok := 200 ≤ code ∧ code < 400, statusCode := some code,
      latencyMs := elapsedMs response.secs, error := none }
  | .error msg status =>
    { name, url, ok := false, statusCode := status, latencyMs := elapsedMs response.secs,
      error := some msg }

/-- `run`; `build` makes the client of a timeout, which meets its `i`-th target as `client i`. -/
def run (settings : Settings) (build : Duration → Except String (Nat → HttpClient)) :
    Flow (List ProbeResult) :=
  (Flow.ofPartial (timeout settings)).bind fun timeout =>
    match build timeout with
    | .error e => .ok (settings.probes.map fun p =>
        { name := p.name, url := p.url, ok := false, statusCode := none, latencyMs := 0,
          error := some ("client build failed: " ++ e) })
    | .ok client => .ok (settings.probes.mapIdx fun i p =>
        probeOne (client i) p.name p.url timeout)

/-! ## One probe -/

/-- A target that refuses HEAD, whose answer to GET comes too late. -/
def SlowFallback (client : HttpClient) (url : String) (timeout : Duration) : Prop :=
  (client.send .head url timeout).outcome = .response 405 ∧
    (∃ code, (client.send .get url timeout).outcome = .response code ∧ 200 ≤ code ∧ code < 400) ∧
    timeout.secs < (client.send .head url timeout).secs + (client.send .get url timeout).secs

/-- The result reports a response of 2xx or 3xx that came within the limit. -/
structure InTime (limit : ℚ) (sent : Sent) (r : ProbeResult) : Prop where
  response : ∃ code, sent.outcome = .response code ∧ r.statusCode = some code ∧ 200 ≤ code ∧
    code < 400
  arrived : sent.secs ≤ limit
  latency : (r.latencyMs : ℚ) ≤ 1000 * limit

variable {client : HttpClient} {name url : String} {timeout : Duration}

theorem lastRequest_fallback (h : (client.send .head url timeout).outcome = .response 405) :
    lastRequest client url timeout = ⟨(client.send .get url timeout).outcome,
      (client.send .head url timeout).secs + (client.send .get url timeout).secs⟩ := if_pos h

theorem lastRequest_direct (h : (client.send .head url timeout).outcome ≠ .response 405) :
    lastRequest client url timeout = client.send .head url timeout := if_neg h

theorem lastRequest_nonneg : 0 ≤ (lastRequest client url timeout).secs := by
  by_cases h : (client.send .head url timeout).outcome = .response 405
  · rw [lastRequest_fallback h]
    exact add_nonneg (client.nonneg ..) (client.nonneg ..)
  · rw [lastRequest_direct h]
    exact client.nonneg ..

theorem probeOne_response {code : Nat}
    (h : (lastRequest client url timeout).outcome = .response code) :
    probeOne client name url timeout =
      ⟨name, url, 200 ≤ code ∧ code < 400, some code,
        elapsedMs (lastRequest client url timeout).secs, none⟩ := by
  unfold probeOne
  dsimp only
  rw [h]

theorem elapsedMs_le {secs : ℚ} (h : 0 ≤ secs) : (elapsedMs secs : ℚ) ≤ 1000 * secs :=
  calc (elapsedMs secs : ℚ) ≤ ⌊secs * 1000⌋₊ := Nat.cast_le.mpr (Nat.mod_le _ _)
    _ ≤ secs * 1000 := Nat.floor_le (by positivity)
    _ = 1000 * secs := mul_comm _ _

theorem probeOne_ok_iff : (probeOne client name url timeout).ok = true ↔
    ∃ code, (lastRequest client url timeout).outcome = .response code ∧ 200 ≤ code ∧
      code < 400 := by
  cases h : (lastRequest client url timeout).outcome with
  | response code => simp [probeOne_response h]
  | error msg status => simp [probeOne, h]

/-- A probe that is ok is in time when its response is. -/
theorem inTime_iff (h : (probeOne client name url timeout).ok = true) (limit : ℚ) :
    InTime limit (lastRequest client url timeout) (probeOne client name url timeout) ↔
      (lastRequest client url timeout).secs ≤ limit := by
  refine ⟨fun hi => hi.arrived, fun hl => ?_⟩
  obtain ⟨code, ho, hlo, hhi⟩ := probeOne_ok_iff.mp h
  rw [probeOne_response ho]
  exact ⟨⟨code, ho, rfl, hlo, hhi⟩, hl, (elapsedMs_le lastRequest_nonneg).trans (by linarith)⟩

theorem late_iff (h : (probeOne client name url timeout).ok = true) :
    timeout.secs < (lastRequest client url timeout).secs ↔ SlowFallback client url timeout := by
  have hok := probeOne_ok_iff.mp h
  unfold SlowFallback
  by_cases hhead : (client.send .head url timeout).outcome = .response 405
  · rw [lastRequest_fallback hhead] at hok ⊢
    simp only [hhead, true_and, hok]
  · rw [lastRequest_direct hhead] at hok ⊢
    obtain ⟨code, ho, -⟩ := hok
    exact iff_of_false (not_lt.mpr (client.inTime _ _ _ code ho)) fun hs => hhead hs.1

/-! ## A pass over all targets -/

/-- `max(probe_timeout, 0.1)`. -/
def limit (settings : Settings) : ℚ := max settings.probeTimeout (1 / 10)

theorem timeout_secs {settings : Settings} {d : Duration} (h : Probes.timeout settings = some d) :
    d.secs = limit settings := by
  have := fromSecsF64_secs h
  rw [F64.max_fin] at this
  exact (F64.fin.inj this).symm

def AllInTime (settings : Settings) (build : Duration → Except String (Nat → HttpClient)) : Prop :=
  ∀ results, run settings build = .ok results → ∀ i r, results[i]? = some r → r.ok = true →
    ∃ timeout client p, Probes.timeout settings = some timeout ∧ build timeout = .ok client ∧
      settings.probes[i]? = some p ∧
      InTime (limit settings) (lastRequest (client i) p.url timeout) r

def NoSlowFallback (settings : Settings) (build : Duration → Except String (Nat → HttpClient)) :
    Prop :=
  ∀ timeout client, Probes.timeout settings = some timeout → build timeout = .ok client →
    ∀ i p, settings.probes[i]? = some p → ¬ SlowFallback (client i) p.url timeout

/-- What a pass returns at each place, when the client can be built. -/
theorem run_eq {settings : Settings} {build : Duration → Except String (Nat → HttpClient)}
    {clients : Nat → HttpClient} (ht : Probes.timeout settings = some timeout)
    (hb : build timeout = .ok clients) :
    run settings build = .ok (settings.probes.mapIdx fun i p =>
      probeOne (clients i) p.name p.url timeout) := by
  rw [run, ht, Flow.ofPartial, Flow.bind, hb]

/-- **When the timeout bounds what is reported healthy**: exactly when no target refuses HEAD and
then answers GET with the two requests together past the timeout. -/
theorem all_in_time_iff (settings : Settings)
    (build : Duration → Except String (Nat → HttpClient)) :
    AllInTime settings build ↔ NoSlowFallback settings build := by
  constructor
  · intro h timeout clients ht hb i p hp hslow
    have hok : (probeOne (clients i) p.name p.url timeout).ok = true := by
      rw [probeOne_ok_iff, lastRequest_fallback hslow.1]
      exact hslow.2.1
    have hr : (settings.probes.mapIdx fun i p =>
        probeOne (clients i) p.name p.url timeout)[i]? =
          some (probeOne (clients i) p.name p.url timeout) := by
      rw [List.getElem?_mapIdx, hp, Option.map_some]
    obtain ⟨_, _, _, ht', hb', hp', hin⟩ := h _ (run_eq ht hb) i _ hr hok
    cases ht.symm.trans ht'
    cases hb.symm.trans hb'
    cases hp.symm.trans hp'
    have hlate := (late_iff hok).mpr hslow
    rw [timeout_secs ht] at hlate
    exact absurd hin.arrived (not_le.mpr hlate)
  · intro h results hrun i r hr hok
    cases ht : Probes.timeout settings with
    | none =>
      rw [run, ht] at hrun
      cases hrun
    | some timeout =>
      cases hb : build timeout with
      | error e =>
        -- no result of a pass without a client is ok
        rw [run, ht, Flow.ofPartial, Flow.bind, hb] at hrun
        cases hrun
        rw [List.getElem?_map, Option.map_eq_some_iff] at hr
        obtain ⟨p, -, rfl⟩ := hr
        cases hok
      | ok clients =>
        rw [run_eq ht hb] at hrun
        cases hrun
        rw [List.getElem?_mapIdx, Option.map_eq_some_iff] at hr
        obtain ⟨p, hp, rfl⟩ := hr
        have hle := not_lt.mp (mt (late_iff hok).mp (h timeout clients ht hb i p hp))
        rw [timeout_secs ht] at hle
        exact ⟨timeout, clients, p, rfl, hb, hp, (inTime_iff hok _).mpr hle⟩

/-! ## A target without HEAD -/

/-- Every request takes nine tenths of its timeout, and only GET is allowed. -/
def noHead : HttpClient where
  send method _ timeout :=
    ⟨.response (if method = .head then 405 else 200), 9 / 10 * timeout.secs⟩
  nonneg _ _ timeout := mul_nonneg (by norm_num) timeout.nonneg
  inTime _ _ timeout _ _ := by linarith [timeout.nonneg]

def oneProbe : Settings := { Settings.default with probes := [⟨"app", "https://app.example"⟩] }

/-- With a timeout of 5 s the probe is reported healthy after 9 s. -/
theorem noHead_late :
    run oneProbe (fun _ => .ok fun _ => noHead) =
        .ok [⟨"app", "https://app.example", true, some 200, 9000, none⟩] ∧
      ¬ AllInTime oneProbe fun _ => .ok fun _ => noHead := by
  have hrun : run oneProbe (fun _ => .ok fun _ => noHead) =
      .ok [⟨"app", "https://app.example", true, some 200, 9000, none⟩] := by
    decide +kernel
  refine ⟨hrun, fun h => ?_⟩
  obtain ⟨_, _, _, -, -, -, hin⟩ := h _ hrun 0 _ rfl rfl
  have hlate := hin.latency
  norm_num [limit, oneProbe, Settings.default, defaultProbeTimeout] at hlate

end Vigil.Probes

import Vigil.Hub.Supervise
import Vigil.Lib.Timed

/-!
# How often the hub hears from a collector

The two sleeps of the hub task: the pause between two rounds of a connection, and
the wait before the next attempt to connect. `hub_paced` says that whatever the
hub answers, asks for and breaks off, attempts to connect are a second apart and
rounds a tenth of a second, over all connections of a run.
-/

namespace Vigil.Hub

open Vigil.Lib

variable (c : Client)

/-! ## What the task waits for -/

inductive Mode where
  /-- an attempt or a handshake is under way -/
  | ready
  | busy
  | asleep
  | over
  deriving DecidableEq

/-- The mode of the task while its connection is in a state, or has just come to it. -/
def ConnState.mode : ConnState → Mode
  | hello | awaitingWelcome => .ready
  | sending _ _ _ _ => .busy
  | draining _ | done _ => .asleep
  | panicked => .over

def ConnState.isDraining : ConnState → Bool
  | draining _ => true
  | _ => false

def ConnState.interval? : ConnState → Option Duration
  | sending _ _ d _ | draining d => some d
  | _ => none

namespace Task

variable (h : Task)

def mode : Mode :=
  match h.ctl with
  | .connecting => .ready
  | .connected k => k.state.mode
  | .waiting => .asleep
  | .stopped | .dead => .over

def isConnecting : Bool :=
  match h.ctl with
  | .connecting => true
  | _ => false

def isWaiting : Bool :=
  match h.ctl with
  | .waiting => true
  | _ => false

def isDraining : Bool :=
  match h.ctl with
  | .connected k => k.state.isDraining
  | _ => false

def sleep : Duration :=
  match h.ctl with
  | .connected k => k.state.interval?.getD h.backoff
  | _ => h.backoff

end Task

def HubEvent.isWake : HubEvent → Bool
  | .backoffOver | .wire (.slept _) => true
  | _ => false

/-- The sleep that is running goes on. -/
def sleepsOn (h h' : Task) : HubEvent → Bool
  | .publish _ => true
  | .wire (.recv _ _) => h.isDraining && h'.isDraining
  | _ => false

/-- The end of the sleep, and when attempts and rounds have begun. -/
structure HubTimes where
  wakeAt : ℚ
  attempts : List ℚ
  rounds : List ℚ

/-- The timers of the hub task, and a log of what they are about. -/
def hubClock : Clock Task HubEvent HubTimes where
  start := ⟨0, [0], []⟩
  ready m t e := !e.isWake || m.wakeAt ≤ t
  note h m t e h' :=
    { wakeAt := if sleepsOn h h' e then m.wakeAt else t + h'.sleep.secs
      attempts := if !h.isConnecting && h'.isConnecting then m.attempts ++ [t] else m.attempts
      rounds := if h.rounds.length < h'.rounds.length then m.rounds ++ [t] else m.rounds }

def timedHub (seed : Snapshot) : Machine (Timed Task HubTimes) (ℚ × HubEvent) :=
  (hub c seed).timed hubClock

variable {c}

/-! ## Lengths of sleeps -/

/-- No interval is below a tenth of a second. -/
theorem Client.tenth_le {m : Incoming} {d : Duration} (h : c.awaitWelcome m = .ok d) :
    1 / 10 ≤ d.secs := by
  have hclamp : ∀ q : ℚ, Flow.ofPartial (fromSecsF64 ((F64.fin q).max (.fin (1 / 10)))) = .ok d →
      1 / 10 ≤ d.secs := by
    intro q hq
    cases hf : fromSecsF64 ((F64.fin q).max (.fin (1 / 10))) with
    | none => rw [hf] at hq; cases hq
    | some d' =>
      rw [hf] at hq
      cases hq
      have := F64.fin.inj (fromSecsF64_secs hf)
      exact this ▸ le_max_right _ _
  obtain ⟨s, hostId, interval, rfl, hf⟩ := Client.isWelcome_of_ok h
  simp only [awaitWelcome, hf, pushInterval] at h
  exact hclamp _ h

theorem interval_emit {f : Frame} {stage : Stage} {d x : Duration} {r : Round}
    (h : (emit c f stage d r).interval? = some x) : x = d := by
  unfold emit at h
  split at h <;> cases h
  rfl

theorem interval_afterProcesses {d x : Duration} {r : Round}
    (h : (afterProcesses c d r).interval? = some x) : x = d := by
  unfold afterProcesses at h
  split at h
  · cases h
    rfl
  · split at h
    · cases h
    · exact interval_emit h

theorem interval_afterSamples {d x : Duration} {r : Round}
    (h : (afterSamples c d r).interval? = some x) : x = d := by
  unfold afterSamples at h
  split at h
  · exact interval_afterProcesses h
  · split at h
    · cases h
    · exact interval_emit h

theorem interval_loopTop {d x : Duration} {r : Round}
    (h : (loopTop c d r).interval? = some x) : x = d := by
  unfold loopTop at h
  split at h
  · exact interval_afterSamples h
  · exact interval_emit h

theorem interval_afterSend {d x : Duration} {r : Round} {stage : Stage}
    (h : (afterSend c d r stage).interval? = some x) : x = d := by
  cases stage with
  | samples => exact interval_afterSamples h
  | processes => exact interval_afterProcesses h
  | processesCpu =>
    cases h
    rfl

/-- The intervals of a connection are not below a tenth of a second. -/
def Conn.Slow (k : Conn) : Prop := ∀ d, k.state.interval? = some d → 1 / 10 ≤ d.secs

theorem Conn.slow_begin : (Conn.begin c).Slow := by
  intro d h
  unfold begin at h
  dsimp only at h
  split at h <;> cases h

theorem Conn.slow_step {k k' : Conn} {e : ConnEvent} (hk : k.Slow) (h : k.step c e = some k') :
    k'.Slow := by
  intro d hd
  cases step_moves h with
  | helloSent | helloFailed | failed | stopped => cases hd
  | answered m r _ =>
    unfold welcome at hd
    split at hd
    · next i hi =>
      rw [interval_loopTop hd]
      exact Client.tenth_le hi
    · cases hd
    · cases hd
  | sent f stage i r hs =>
    rw [interval_afterSend hd]
    exact hk i (by rw [hs]; rfl)
  | drained i m r hs =>
    have hi := hk i (by rw [hs]; rfl)
    match m, hd with
    | some (.ok (.text _)), hd | some (.ok .binary), hd | some (.ok .ping), hd
    | some (.ok .pong), hd =>
      cases hd
      exact hi
  | slept i r hs =>
    rw [interval_loopTop hd]
    exact hk i (by rw [hs]; rfl)

/-! ## What a step does to the sleeps -/

namespace Task

variable {h h' : Task}

/-- No wait is below a second, no interval below a tenth of one. -/
structure Slow (h : Task) : Prop where
  backoff : 1 ≤ h.backoff.secs
  conn : ∀ k, h.ctl = .connected k → k.Slow

theorem slow_sessionOver (hs : h.Slow) (e : SessionEnd) (res : Except String Unit) :
    (h.sessionOver e res).Slow := by
  refine ⟨?_, fun k hk => by cases hk⟩
  cases res with
  | ok u => exact (le_refl (1 : ℚ))
  | error m => exact hs.backoff

theorem slow_settle (hs : h.Slow) {k : Conn} (hk : k.Slow) : (h.settle c k).Slow := by
  unfold settle
  split
  · exact slow_sessionOver (h := { h with ended := h.ended ++ [k] }) ⟨hs.backoff, hs.conn⟩ _ _
  · exact ⟨hs.backoff, fun k hk => by cases hk⟩
  · refine ⟨hs.backoff, fun k' hk' => ?_⟩
    cases hk'
    exact hk

theorem slow_grow (hs : h.Slow) : h.grow.Slow := by
  unfold grow
  split
  · next d hd =>
    have hsecs := F64.fin.inj (fromSecsF64_secs hd)
    refine ⟨?_, fun k hk => by cases hk⟩
    rw [← hsecs]
    exact le_min (by linarith [hs.backoff]) (by norm_num)
  · exact ⟨hs.backoff, fun k hk => by cases hk⟩

theorem slow_step {e : HubEvent} (hs : h.Slow) (hstep : h.step c e = some h') : h'.Slow := by
  cases step_moves hstep with
  | publish s => exact ⟨hs.backoff, hs.conn⟩
  | refused e hc => exact slow_sessionOver hs _ _
  | connected hc => exact slow_settle hs Conn.slow_begin
  | wire k k' e hc hk => exact slow_settle hs (Conn.slow_step (hs.conn k hc) hk)
  | backoffOver hc => exact slow_grow hs
  | stop | cut => exact ⟨hs.backoff, fun k hk => by cases hk⟩

theorem mode_settle (k : Conn) : (h.settle c k).mode = k.state.mode := by
  unfold settle
  split
  · next hk => rw [hk]; rfl
  · next hk => rw [hk]; rfl
  · rfl

theorem rounds_settle (k : Conn) :
    (h.settle c k).rounds = h.ended.flatMap Conn.rounds ++ k.rounds := by
  simp [rounds, conns_settle]

theorem rounds_connected {k : Conn} (hc : h.ctl = .connected k) :
    h.rounds = h.ended.flatMap Conn.rounds ++ k.rounds := by
  simp [rounds, conns_connected hc]

theorem rounds_of_not_connected (hc : ∀ k, h.ctl ≠ .connected k) :
    h.rounds = h.ended.flatMap Conn.rounds := by
  rw [rounds, conns_of_not_connected hc]

end Task

theorem mode_emit {f : Frame} {stage : Stage} {d : Duration} {r : Round} :
    (emit c f stage d r).mode ≠ .ready := by
  unfold emit
  split <;> exact fun h => by cases h

theorem mode_afterProcesses {d : Duration} {r : Round} :
    (afterProcesses c d r).mode ≠ .ready := by
  unfold afterProcesses
  split
  · exact fun h => by cases h
  · split
    · exact fun h => by cases h
    · exact mode_emit

theorem mode_afterSamples {d : Duration} {r : Round} : (afterSamples c d r).mode ≠ .ready := by
  unfold afterSamples
  split
  · exact mode_afterProcesses
  · split
    · exact fun h => by cases h
    · exact mode_emit

theorem mode_loopTop {d : Duration} {r : Round} : (loopTop c d r).mode ≠ .ready := by
  unfold loopTop
  split
  · exact mode_afterSamples
  · exact mode_emit

theorem mode_drain {d : Duration} (m : Incoming) : (drain d m).mode = .asleep := by
  match m with
  | none | some (.error _) | some (.ok .close) | some (.ok (.text _)) | some (.ok .binary)
  | some (.ok .ping) | some (.ok .pong) => rfl

theorem mode_afterSend {d : Duration} {r : Round} {stage : Stage} :
    (afterSend c d r stage).mode ≠ .ready := by
  cases stage with
  | samples => exact mode_afterSamples
  | processes => exact mode_afterProcesses
  | processesCpu => exact fun h => by cases h

namespace Conn

variable {k k' : Conn} {e : ConnEvent}

/-- A round begins on the welcome, or at the end of a sleep. -/
theorem rounds_length (h : k.step c e = some k') : k'.rounds.length = k.rounds.length ∨
    k'.rounds.length = k.rounds.length + 1 ∧ k'.state.mode ≠ .ready ∧
      (k.state = .awaitingWelcome ∨ k.state.mode = .asleep ∧ ∃ r, e = .slept r) := by
  cases step_moves h with
  | answered m r hs =>
    unfold welcome
    split
    · exact .inr ⟨by simp, mode_loopTop, .inl hs⟩
    · exact .inl rfl
    · exact .inl rfl
  | slept d r hs => exact .inr ⟨by simp, mode_loopTop, .inr ⟨by rw [hs]; rfl, r, rfl⟩⟩
  | helloSent | helloFailed | sent | failed | drained | stopped => exact .inl rfl

theorem ready_step (h : k.step c e = some k') (hr : k'.state.mode = .ready) :
    k.state.mode = .ready := by
  cases step_moves h with
  | helloSent hs => rw [hs]; rfl
  | answered m r hs => rw [hs]; rfl
  | sent f stage d r hs => exact absurd hr mode_afterSend
  | slept d r hs => exact absurd hr mode_loopTop
  | drained d m r hs =>
    rw [show (drain d m).mode = .asleep from mode_drain m] at hr
    cases hr
  | helloFailed | failed | stopped => cases hr

end Conn

namespace Task

variable {h h' : Task}

/-- What a step does to the mode and to the rounds. -/
structure Beat (h : Task) (e : HubEvent) (h' : Task) : Prop where
  rounds : h'.rounds.length = h.rounds.length ∨
    h'.rounds.length = h.rounds.length + 1 ∧ h'.mode ≠ .ready ∧ sleepsOn h h' e = false ∧
      (h.mode = .ready ∨ h.mode = .asleep ∧ e.isWake = true)
  ready : h'.mode = .ready → h.mode = .ready ∨ h.mode = .asleep ∧ e.isWake = true
  asleep : sleepsOn h h' e = true → h'.mode = .asleep → h.mode = .asleep

theorem mode_connected {k : Conn} (hc : h.ctl = .connected k) : h.mode = k.state.mode := by
  rw [mode, hc]

theorem asleep_of_isDraining (hd : h.isDraining = true) : h.mode = .asleep := by
  unfold isDraining at hd
  split at hd
  · next k hc =>
    rw [mode_connected hc]
    cases hs : k.state with
    | draining d => rfl
    | hello | awaitingWelcome | sending _ _ _ _ | done _ | panicked => rw [hs] at hd; cases hd
  · cases hd

theorem beat_step {e : HubEvent} (hs : h.step c e = some h') : h.Beat e h' := by
  cases step_moves hs with
  | publish s => exact ⟨.inl rfl, .inl, fun _ => id⟩
  | refused m hc =>
    have hn : h.rounds = h.ended.flatMap Conn.rounds := rounds_of_not_connected (by simp [hc])
    refine ⟨.inl ?_, fun h => (by cases h), fun h => (by cases h)⟩
    rw [hn, rounds, conns_sessionOver]
  | connected hc =>
    have hn : h.rounds = h.ended.flatMap Conn.rounds := rounds_of_not_connected (by simp [hc])
    refine ⟨.inl ?_, fun _ => .inl (by rw [mode, hc]), fun h => (by cases h)⟩
    rw [hn, rounds_settle]
    simp [Conn.begin]
  | wire k k' w hc hk =>
    have hmode : (h.settle c k').mode = k'.state.mode := mode_settle k'
    have hlen := Conn.rounds_length hk
    refine ⟨?_, fun hr => .inl ?_, fun hso _ => ?_⟩
    · rw [rounds_settle, rounds_connected hc, List.length_append, List.length_append]
      rcases hlen with hl | ⟨hl, hm, hw⟩
      · exact .inl (by omega)
      · refine .inr ⟨by omega, hmode ▸ hm, ?_, ?_⟩
        · cases w with
          | recv m ts =>
            obtain hw | ⟨-, r, hr⟩ := hw
            · simp [sleepsOn, isDraining, hc, hw, ConnState.isDraining]
            · cases hr
          | sent | sendFailed | slept | stopped => rfl
        · rcases hw with hw | ⟨hw, r, hr⟩
          · exact .inl (by rw [mode_connected hc, hw]; rfl)
          · refine .inr ⟨by rw [mode_connected hc, hw], ?_⟩
            cases w <;> cases hr
            rfl
    · rw [mode_connected hc]
      exact Conn.ready_step hk (hmode ▸ hr)
    · cases w with
      | recv m ts => exact asleep_of_isDraining (Bool.and_eq_true_iff.mp hso).1
      | sent | sendFailed | slept | stopped => cases hso
  | backoffOver hc =>
    have hn : h.rounds = h.ended.flatMap Conn.rounds := rounds_of_not_connected (by simp [hc])
    refine ⟨.inl ?_, fun _ => .inr ⟨by rw [mode, hc], rfl⟩, fun h => (by cases h)⟩
    rw [hn, rounds, conns_grow]
  | stop hc =>
    have hn : h.rounds = h.ended.flatMap Conn.rounds :=
      rounds_of_not_connected (by rcases hc with hc | hc <;> simp [hc])
    refine ⟨.inl ?_, fun h => (by cases h), fun h => (by cases h)⟩
    rw [hn, rounds_of_not_connected (by simp)]
  | cut k hc =>
    refine ⟨.inl ?_, fun h => (by cases h), fun h => (by cases h)⟩
    rw [rounds_connected hc, rounds_of_not_connected (by simp), List.flatMap_append]
    simp

/-- What a step does to the attempts to connect. -/
structure Attempt (h : Task) (e : HubEvent) (h' : Task) : Prop where
  connecting : h'.isConnecting = true → h.isConnecting = true ∨ h.isWaiting = true ∧ e.isWake = true
  waiting : sleepsOn h h' e = true → h'.isWaiting = true → h.isWaiting = true

theorem isConnecting_settle (k : Conn) : (h.settle c k).isConnecting = false := by
  unfold settle
  split <;> rfl

theorem attempt_step {e : HubEvent} (hs : h.step c e = some h') : h.Attempt e h' := by
  have hset : ∀ {k : Conn}, (h.settle c k).isConnecting = true →
      h.isConnecting = true ∨ h.isWaiting = true ∧ e.isWake = true := fun hc => by
    rw [isConnecting_settle] at hc
    cases hc
  cases step_moves hs with
  | publish s => exact ⟨.inl, fun _ => id⟩
  | refused m hc => exact ⟨fun h => (by cases h), fun h => (by cases h)⟩
  | connected hc => exact ⟨hset, fun h => (by cases h)⟩
  | wire k k' w hc hk =>
    refine ⟨hset, fun hso hw => ?_⟩
    cases w with
    | recv m ts =>
      -- a sleep that goes on between two messages is no wait
      have hd := (Bool.and_eq_true_iff.mp hso).2
      unfold isDraining at hd
      unfold isWaiting at hw
      split at hd
      · next hc' => rw [hc'] at hw; cases hw
      · cases hd
    | sent | sendFailed | slept | stopped => cases hso
  | backoffOver hc =>
    exact ⟨fun _ => .inr ⟨by rw [isWaiting, hc], rfl⟩, fun h => (by cases h)⟩
  | stop | cut => exact ⟨fun h => (by cases h), fun h => (by cases h)⟩

theorem Slow.tenth_le_sleep (hs : h.Slow) : 1 / 10 ≤ h.sleep.secs := by
  have hb : 1 / 10 ≤ h.backoff.secs := by linarith [hs.backoff]
  unfold sleep
  split
  · next k hc =>
    cases hi : k.state.interval? with
    | none => exact hb
    | some d => exact hs.conn k hc d hi
  · exact hb

theorem Slow.one_le_sleep (hs : h.Slow) (hw : h.isWaiting = true) : 1 ≤ h.sleep.secs := by
  unfold isWaiting at hw
  split at hw
  · next hc =>
    rw [sleep, hc]
    exact hs.backoff
  · cases hw

end Task

/-! ## Pacing -/

/-- The logs are spaced, and where the next attempt or round may be close, it is kept away. -/
structure Paced (s : Timed Task HubTimes) : Prop where
  slow : s.state.Slow
  rounds : SpacedBy (1 / 10) s.mem.rounds (s.now + 1 / 10)
  ready : s.state.mode = .ready → SpacedBy (1 / 10) s.mem.rounds s.now
  asleep : s.state.mode = .asleep → SpacedBy (1 / 10) s.mem.rounds s.mem.wakeAt
  attempts : SpacedBy 1 s.mem.attempts (s.now + 1)
  waiting : s.state.isWaiting = true → SpacedBy 1 s.mem.attempts s.mem.wakeAt
  count : s.mem.rounds.length = s.state.rounds.length

structure Notes (s : Timed Task HubTimes) (e : ℚ × HubEvent) (s' : Timed Task HubTimes) :
    Prop where
  due : e.2.isWake = true → s.mem.wakeAt ≤ e.1
  wakeAt : s'.mem.wakeAt =
    if sleepsOn s.state s'.state e.2 then s.mem.wakeAt else e.1 + s'.state.sleep.secs
  attempts : s'.mem.attempts =
    if !s.state.isConnecting && s'.state.isConnecting then s.mem.attempts ++ [e.1]
    else s.mem.attempts
  rounds : s'.mem.rounds =
    if s.state.rounds.length < s'.state.rounds.length then s.mem.rounds ++ [e.1]
    else s.mem.rounds

variable {seed : Snapshot} {s s' : Timed Task HubTimes} {e : ℚ × HubEvent}

theorem notes_step (hs : (timedHub c seed).step s e = some s') : Notes s e s' := by
  have ht := Machine.timedStep hs
  have hready := ht.ready
  refine ⟨fun hw => ?_, ?_, ?_, ?_⟩
  · simpa [hubClock, hw] using hready
  · rw [ht.mem]; rfl
  · rw [ht.mem]; rfl
  · rw [ht.mem]; rfl

/-- A round that begins is logged, and nothing else is. -/
theorem rounds_paced (hp : Paced s) (hs : (timedHub c seed).step s e = some s') :
    SpacedBy (1 / 10) s'.mem.rounds (e.1 + 1 / 10) ∧
      s'.mem.rounds.length = s'.state.rounds.length ∧
      (s'.mem.rounds = s.mem.rounds ∨ s'.state.mode ≠ .ready ∧
        sleepsOn s.state s'.state e.2 = false) := by
  have ht := Machine.timedStep hs
  have hn := notes_step hs
  have hlater := ht.later
  have hlen := hp.count
  rcases (Task.beat_step ht.step).rounds with hl | ⟨hl, hm, hso, hfrom⟩
  · have hsame : s'.mem.rounds = s.mem.rounds := by rw [hn.rounds, if_neg (by omega)]
    rw [hsame, hl]
    exact ⟨hp.rounds.wait (by linarith), hlen, .inl rfl⟩
  · have hnew : s'.mem.rounds = s.mem.rounds ++ [e.1] := by rw [hn.rounds, if_pos (by omega)]
    rw [hnew, List.length_append, List.length_singleton]
    refine ⟨?_, by omega, .inr ⟨hm, hso⟩⟩
    rcases hfrom with hr | ⟨ha, hw⟩
    · exact (hp.ready hr).start (by norm_num) hlater
    · exact (hp.asleep ha).start (by norm_num) (hn.due hw)

theorem attempts_paced (hp : Paced s) (hs : (timedHub c seed).step s e = some s') :
    SpacedBy 1 s'.mem.attempts (e.1 + 1) ∧
      (s'.mem.attempts = s.mem.attempts ∨ s'.state.isConnecting = true) := by
  have ht := Machine.timedStep hs
  have hn := notes_step hs
  have hlater := ht.later
  rw [hn.attempts]
  split
  · next hnew =>
    obtain ⟨hno, hyes⟩ := Bool.and_eq_true_iff.mp hnew
    refine ⟨?_, .inr hyes⟩
    rcases (Task.attempt_step ht.step).connecting hyes with hc | ⟨hw, hwake⟩
    · rw [hc] at hno
      cases hno
    · exact (hp.waiting hw).start (by norm_num) (hn.due hwake)
  · exact ⟨hp.attempts.wait (by linarith), .inl rfl⟩

theorem paced_step (hp : Paced s) (hs : (timedHub c seed).step s e = some s') : Paced s' := by
  have ht := Machine.timedStep hs
  have hn := notes_step hs
  have hlater := ht.later
  have hslow := Task.slow_step hp.slow ht.step
  have hbeat := Task.beat_step ht.step
  have hatt := Task.attempt_step ht.step
  obtain ⟨hrounds, hcount, hsame⟩ := rounds_paced hp hs
  obtain ⟨hattempts, hold⟩ := attempts_paced hp hs
  refine ⟨hslow, ht.now ▸ hrounds, fun hr => ?_, fun ha => ?_, ht.now ▸ hattempts, fun hw => ?_,
    hcount⟩
  · obtain hsame | ⟨hne, -⟩ := hsame
    · rw [hsame, ht.now]
      rcases hbeat.ready hr with hr | ⟨ha, hw⟩
      · exact (hp.ready hr).wait hlater
      · exact (hp.asleep ha).wait (hn.due hw)
    · exact absurd hr hne
  · rw [hn.wakeAt]
    by_cases hso : sleepsOn s.state s'.state e.2 = true
    · obtain hsame | ⟨-, hno⟩ := hsame
      · rw [if_pos hso, hsame]
        exact hp.asleep (hbeat.asleep hso ha)
      · rw [hso] at hno
        cases hno
    · rw [if_neg hso]
      exact hrounds.wait (by linarith [hslow.tenth_le_sleep])
  · rw [hn.wakeAt]
    by_cases hso : sleepsOn s.state s'.state e.2 = true
    · obtain hold | hc := hold
      · rw [if_pos hso, hold]
        exact hp.waiting (hatt.waiting hso hw)
      · unfold Task.isConnecting at hc
        unfold Task.isWaiting at hw
        split at hc
        · next h => rw [h] at hw; cases hw
        · cases hc
    · rw [if_neg hso]
      exact hattempts.wait (by linarith [hslow.one_le_sleep hw])

/-- **What a hub is spared.** Over all connections of a run, whatever the hub answers and whatever
interval it asks for, attempts to connect are a second apart and rounds a tenth of a second. A
window of time has room for one attempt a second and one more, and for ten rounds a second and one
more. -/
theorem hub_paced {es : List (ℚ × HubEvent)} (hr : (timedHub c seed).Reaches es s) :
    Spaced 1 s.mem.attempts ∧ Spaced (1 / 10) s.mem.rounds ∧
      s.mem.rounds.length = s.state.rounds.length ∧
      ∀ a b, a ≤ b →
        ((s.mem.attempts.filter fun t => a ≤ t ∧ t ≤ b).length : ℚ) ≤ (b - a) + 1 ∧
        ((s.mem.rounds.filter fun t => a ≤ t ∧ t ≤ b).length : ℚ) ≤ 10 * (b - a) + 1 := by
  have hp : Paced s := by
    refine hr.inv (P := Paced) ?_ fun _ _ _ hp hs => paced_step hp hs
    refine ⟨⟨le_refl (1 : ℚ), fun k hk => by cases hk⟩, .none, fun _ => .none, fun _ => .none, ?_,
      fun h => (by cases h), rfl⟩
    have hnone : SpacedBy 1 [] 0 := .none
    have h0 := hnone.start zero_le_one (t := 0) le_rfl
    simpa [timedHub, Machine.timed, hubClock] using h0
  refine ⟨hp.attempts.spaced, hp.rounds.spaced, hp.count, fun a b hab => ⟨?_, ?_⟩⟩
  · have := hp.attempts.spaced.length_window_le (by norm_num) hab
    rwa [div_one] at this
  · calc ((s.mem.rounds.filter fun t => a ≤ t ∧ t ≤ b).length : ℚ)
        ≤ (b - a) / (1 / 10) + 1 := hp.rounds.spaced.length_window_le (by norm_num) hab
      _ = 10 * (b - a) + 1 := by ring

/-- A hub that wants rounds without a pause. -/
def hastyWelcome : String := "\x7b\"t\":\"welcome\",\"host_id\":1,\"interval\":0\x7d"

def hastyLab : Client :=
  { lab with
    serde :=
      { labSerde with
        parse := fun s =>
          if s = hastyWelcome then
            .ok (.obj [("t", .str "welcome"), ("host_id", .num (.posInt 1)),
              ("interval", .num (.posInt 0))])
          else labSerde.parse s } }

/-- Two rounds, a send that fails, and an attempt that is refused. -/
def hastyRun : List (ℚ × HubEvent) :=
  [(0, .connected), (0, .wire .sent), (0, .wire (.recv (some (.ok (.text hastyWelcome))) 100)),
    (0, .wire .sent), (1 / 10, .wire (.slept 100)),
    (2 / 10, .wire (.sendFailed "broken pipe" false)), (13 / 10, .backoffOver),
    (13 / 10, .connectFailed "connection refused")]

theorem hub_paced_hastyRun : ∃ s, (timedHub hastyLab .default).Reaches hastyRun s ∧
    s.mem.rounds = [0, 1 / 10] ∧ s.mem.attempts = [0, 13 / 10] ∧ Spaced (1 / 10) s.mem.rounds := by
  have hrun : ∃ s, (timedHub hastyLab .default).Reaches hastyRun s ∧
      s.mem.rounds = [0, 1 / 10] ∧ s.mem.attempts = [0, 13 / 10] := by
    with_unfolding_all exact ⟨_, rfl, rfl, rfl⟩
  obtain ⟨s, hr, hrounds, hattempts⟩ := hrun
  exact ⟨s, hr, hrounds, hattempts, (hub_paced hr).2.1⟩

end Vigil.Hub

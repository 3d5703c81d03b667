import Vigil.Hub.Client
import Vigil.Lib.Machine

/-!
# One connection to the hub

`session c` is `connect_and_push` after the WebSocket handshake, suspended at
its await points: sending hello, waiting for the first message, sending the
frames of a round one after the other, and draining messages until the next
round. A `Conn` is the state together with what the connection has written and
received so far.

The network and the hub are free: any send may fail, before or after the frame
got through, and any message may arrive whenever the code reads one. The
`Round` in an event is what the top of `push_loop` loads if the step gets there.
-/

namespace Vigil.Hub

open Vigil.Lib

/-- Which frame of a round is being sent. -/
inductive Stage where
  | samples
  | processes
  | processesCpu
  deriving DecidableEq

/-- The await points of `connect_and_push`, and its two ends. -/
inductive ConnState where
  | hello
  | awaitingWelcome
  | sending (f : Frame) (stage : Stage) (interval : Duration) (r : Round)
  | draining (interval : Duration)
  | done (res : Except String Unit)
  | panicked

structure Conn where
  state : ConnState
  frames : List Frame
  rounds : List Round
  received : List Incoming
  sendFailed : Bool

inductive ConnEvent where
  | sent
  /-- the send failed; `wrote` says whether the frame got through nevertheless -/
  | sendFailed (e : String) (wrote : Bool)
  | recv (m : Incoming) (r : Round)
  /-- the sleep until the next round is over -/
  | slept (r : Round)
  /-- `stop.notified()` -/
  | stopped

/-! ## The code between two await points -/

variable (c : Client)

/-- `tx.send` of a frame: serialization comes first. -/
def emit (f : Frame) (stage : Stage) (interval : Duration) (r : Round) : ConnState :=
  match c.serde.toString f with
  | .error e => .done (.error e)
  | .ok _ => .sending f stage interval r

def afterProcesses (interval : Duration) (r : Round) : ConnState :=
  if r.snap.processesByCpu = [] then .draining interval
  else
    match r.buildProcessesCpu with
    | none => .panicked
    | some f => emit c f .processesCpu interval r

def afterSamples (interval : Duration) (r : Round) : ConnState :=
  if r.snap.processes = [] then afterProcesses c interval r
  else
    match r.buildProcesses with
    | none => .panicked
    | some f => emit c f .processes interval r

/-- The top of `push_loop`. -/
def loopTop (interval : Duration) (r : Round) : ConnState :=
  if flatten r.snap = [] then afterSamples c interval r
  else emit c r.samples .samples interval r

/-- After the frame of a stage is sent. -/
def afterSend (interval : Duration) (r : Round) : Stage → ConnState
  | .samples => afterSamples c interval r
  | .processes => afterProcesses c interval r
  | .processesCpu => .draining interval

/-- The inner `select!` of `push_loop` on a message. -/
def drain (interval : Duration) : Incoming → ConnState
  | some (.ok .close) | none => .done (.ok ())
  | some (.ok _) => .draining interval
  | some (.error e) => .done (.error e)

/-- `connect_and_push` once the socket is there. -/
def Conn.begin : Conn where
  state :=
    match c.serde.toString (.hello c.hello) with
    | .error e => .done (.error e)
    | .ok _ => .hello
  frames := []
  rounds := []
  received := []
  sendFailed := false

namespace Conn

variable (k : Conn)

/-- The first message after hello arrives. -/
def welcome (m : Incoming) (r : Round) : Conn :=
  match c.awaitWelcome m with
  | .ok d => { k with
      state := loopTop c d r, rounds := k.rounds ++ [r], received := k.received ++ [m] }
  | .err e => { k with state := .done (.error e), received := k.received ++ [m] }
  | .panic => { k with state := .panicked, received := k.received ++ [m] }

def fail (f : Frame) (e : String) (wrote : Bool) : Conn :=
  { k with
    state := .done (.error e)
    frames := if wrote then k.frames ++ [f] else k.frames
    sendFailed := true }

def step : ConnEvent → Option Conn
  | .sent =>
    match k.state with
    | .hello => some { k with state := .awaitingWelcome, frames := k.frames ++ [.hello c.hello] }
    | .sending f stage d r =>
      some { k with state := afterSend c d r stage, frames := k.frames ++ [f] }
    | _ => none
  | .sendFailed e wrote =>
    match k.state with
    | .hello => some (k.fail (.hello c.hello) e wrote)
    | .sending f _ _ _ => some (k.fail f e wrote)
    | _ => none
  | .recv m r =>
    match k.state with
    | .awaitingWelcome => some (k.welcome c m r)
    | .draining d => some { k with state := drain d m, received := k.received ++ [m] }
    | _ => none
  | .slept r =>
    match k.state with
    | .draining d => some { k with state := loopTop c d r, rounds := k.rounds ++ [r] }
    | _ => none
  | .stopped =>
    match k.state with
    | .draining _ => some { k with state := .done (.ok ()) }
    | _ => none

end Conn

def session : Machine Conn ConnEvent where
  init := .begin c
  step k := k.step c

/-! ## What a step does -/

def ConnState.IsOver : ConnState → Prop
  | .done _ | .panicked => True
  | _ => False

namespace Conn

/-- **The moves of a session.** -/
inductive Moves (k : Conn) : ConnEvent → Conn → Prop where
  | helloSent : k.state = .hello →
      Moves k .sent { k with state := .awaitingWelcome, frames := k.frames ++ [.hello c.hello] }
  | helloFailed (e : String) (wrote : Bool) : k.state = .hello →
      Moves k (.sendFailed e wrote) (k.fail (.hello c.hello) e wrote)
  | answered (m : Incoming) (r : Round) : k.state = .awaitingWelcome →
      Moves k (.recv m r) (k.welcome c m r)
  | sent (f : Frame) (stage : Stage) (d : Duration) (r : Round) : k.state = .sending f stage d r →
      Moves k .sent { k with state := afterSend c d r stage, frames := k.frames ++ [f] }
  | failed (f : Frame) (stage : Stage) (d : Duration) (r : Round) (e : String) (wrote : Bool) :
      k.state = .sending f stage d r → Moves k (.sendFailed e wrote) (k.fail f e wrote)
  | drained (d : Duration) (m : Incoming) (r : Round) : k.state = .draining d →
      Moves k (.recv m r) { k with state := drain d m, received := k.received ++ [m] }
  | slept (d : Duration) (r : Round) : k.state = .draining d →
      Moves k (.slept r) { k with state := loopTop c d r, rounds := k.rounds ++ [r] }
  | stopped (d : Duration) : k.state = .draining d →
      Moves k .stopped { k with state := .done (.ok ()) }

variable {c}

theorem step_moves {k k' : Conn} {e : ConnEvent} (h : k.step c e = some k') : Moves c k e k' := by
  unfold step at h
  cases e with
  | sent =>
    dsimp only at h
    split at h
    · next hs => cases h; exact .helloSent hs
    · next f stage d r hs => cases h; exact .sent f stage d r hs
    · cases h
  | sendFailed e wrote =>
    dsimp only at h
    split at h
    · next hs => cases h; exact .helloFailed e wrote hs
    · next f stage d r hs => cases h; exact .failed f stage d r e wrote hs
    · cases h
  | recv m r =>
    dsimp only at h
    split at h
    · next hs => cases h; exact .answered m r hs
    · next d hs => cases h; exact .drained d m r hs
    · cases h
  | slept r =>
    dsimp only at h
    split at h
    · next d hs => cases h; exact .slept d r hs
    · cases h
  | stopped =>
    dsimp only at h
    split at h
    · next d hs => cases h; exact .stopped d hs
    · cases h

theorem step_of_over {k : Conn} {e : ConnEvent} (ho : k.state.IsOver) : k.step c e = none := by
  cases hstep : k.step c e with
  | none => rfl
  | some k' =>
    cases step_moves hstep with
    | helloSent hs | helloFailed _ _ hs | answered _ _ hs | sent _ _ _ _ hs
    | failed _ _ _ _ _ _ hs | drained _ _ _ hs | slept _ _ hs | stopped _ hs =>
      rw [hs] at ho
      exact ho.elim

@[simp] theorem welcome_received (k : Conn) (m : Incoming) (r : Round) :
    (k.welcome c m r).received = k.received ++ [m] := by
  unfold welcome
  split <;> rfl

theorem received_step {k k' : Conn} {e : ConnEvent} (h : k.step c e = some k') :
    k.received <+: k'.received := by
  cases step_moves h with
  | answered m r _ =>
    rw [welcome_received]
    exact List.prefix_append _ _
  | drained d m r _ => exact List.prefix_append _ _
  | helloSent | helloFailed | sent | failed | slept | stopped => exact List.prefix_rfl

end Conn

/-! ## Frames of a round -/

/-- The frames of a round that precede a stage. -/
def Round.before (r : Round) : Stage → List Frame
  | .samples => []
  | .processes => [r.samples]
  | .processesCpu => r.samples :: if r.snap.processes = [] then [] else [r.processes]

def Round.frameOf (r : Round) : Stage → Frame
  | .samples => r.samples
  | .processes => r.processes
  | .processesCpu => r.processesCpu

/-- A state of the push phase fits the part `w` of the round `r` that is written. -/
def Fits (r : Round) (w : List Frame) : ConnState → Prop
  | .sending f stage _ r' => r' = r ∧ w = r.before stage ∧ f = r.frameOf stage ∧
      w ++ [f] <+: r.frames
  | .draining _ => w = r.frames
  | .done res => (∃ e, res = .error e) ∧ w <+: r.frames
  | _ => False

variable {c}

theorem fits_emit {r : Round} (stage : Stage) (d : Duration)
    (h : r.before stage ++ [r.frameOf stage] <+: r.frames) :
    Fits r (r.before stage) (emit c (r.frameOf stage) stage d r) := by
  unfold emit
  split
  · next e _ => exact ⟨⟨e, rfl⟩, (List.prefix_append _ _).trans h⟩
  · exact ⟨rfl, rfl, rfl, h⟩

theorem fits_afterProcesses (d : Duration) (r : Round) :
    Fits r (r.before .processesCpu) (afterProcesses c d r) := by
  unfold afterProcesses
  split
  · next h => simp [Fits, Round.before, Round.frames, h]
  · next h =>
    rw [Round.buildProcessesCpu_eq]
    refine fits_emit .processesCpu d ?_
    simp [Round.before, Round.frameOf, Round.frames, h]

theorem fits_afterSamples (d : Duration) (r : Round) :
    Fits r [r.samples] (afterSamples c d r) := by
  unfold afterSamples
  split
  · next h =>
    have := fits_afterProcesses (c := c) d r
    rwa [Round.before, if_pos h] at this
  · next h =>
    rw [Round.buildProcesses_eq]
    refine fits_emit .processes d ?_
    simp [Round.before, Round.frameOf, Round.frames, h]

/-- A round begins with nothing written and with its samples frame. -/
theorem fits_loopTop (d : Duration) (r : Round) : Fits r [] (loopTop c d r) := by
  rw [loopTop, if_neg (flatten_ne_nil _)]
  refine fits_emit .samples d ?_
  simp [Round.before, Round.frameOf, Round.frames]

theorem fits_afterSend {r : Round} {stage : Stage} (d : Duration)
    (h : r.before stage ++ [r.frameOf stage] <+: r.frames) :
    Fits r (r.before stage ++ [r.frameOf stage]) (afterSend c d r stage) := by
  cases stage with
  | samples => exact fits_afterSamples d r
  | processes =>
    have hp : r.snap.processes ≠ [] := by
      intro he
      by_cases hc : r.snap.processesByCpu = []
      · simp [Round.before, Round.frameOf, Round.frames, he, hc] at h
      · simp [Round.before, Round.frameOf, Round.frames, he, hc, Round.processes,
          Round.processesCpu] at h
    have := fits_afterProcesses (c := c) d r
    rwa [Round.before, if_neg hp] at this
  | processesCpu =>
    have hc : r.snap.processesByCpu ≠ [] := by
      intro he
      by_cases hp : r.snap.processes = []
      · simp [Round.before, Round.frameOf, Round.frames, he, hp] at h
      · simp [Round.before, Round.frameOf, Round.frames, he, hp] at h
    by_cases hp : r.snap.processes = [] <;>
      simp [afterSend, Fits, Round.before, Round.frameOf, Round.frames, hp, hc]

/-! ## The invariant of a connection -/

/-- Receiving `m` ends the session: a close frame, the end of the stream, or an error. -/
def Incoming.Ends : Incoming → Prop
  | some (.ok .close) | some (.error _) | none => True
  | some (.ok _) => False

def Conn.Welcomed (c : Client) (k : Conn) : Prop := ∃ m, k.received.head? = some m ∧ c.IsWelcome m

variable (c) in
inductive Conn.Inv : Conn → Prop where
  | hello : Conn.Inv ⟨.hello, [], [], [], false⟩
  | awaiting : Conn.Inv ⟨.awaitingWelcome, [.hello c.hello], [], [], false⟩
  | pushing (st : ConnState) (m : Incoming) (ms : List Incoming) (rs : List Round) (r : Round)
      (w : List Frame) : c.IsWelcome m → (∀ x ∈ m :: ms, ¬ x.Ends) → Fits r w st → ¬ st.IsOver →
      Conn.Inv ⟨st, .hello c.hello :: (rs.flatMap Round.frames ++ w), rs ++ [r], m :: ms, false⟩
  | ended (k : Conn) : k.state.IsOver →
      k.frames <+: .hello c.hello :: k.rounds.flatMap Round.frames →
      (1 < k.frames.length → k.Welcomed c) → (k.state = .done (.ok ()) → k.Welcomed c) →
      Conn.Inv k

namespace Conn

theorem inv_begin : Conn.Inv c (.begin c) := by
  unfold begin
  split
  · refine .ended _ trivial List.nil_prefix (fun h => by simp at h) (fun h => by cases h)
  · exact .hello

/-- A state that fits the round `r` after the rounds `rs`, in the push phase of a connection. -/
theorem inv_of_fits {st : ConnState} {m : Incoming} {ms : List Incoming} (rs : List Round)
    {r : Round} {w : List Frame} (hm : c.IsWelcome m) (hms : ∀ x ∈ m :: ms, ¬ x.Ends)
    (h : Fits r w st) :
    Conn.Inv c
      ⟨st, .hello c.hello :: (rs.flatMap Round.frames ++ w), rs ++ [r], m :: ms, false⟩ := by
  by_cases ho : st.IsOver
  · cases st with
    | done res =>
      obtain ⟨⟨e, rfl⟩, hw⟩ := h
      refine .ended _ trivial ?_ (fun _ => ⟨m, rfl, hm⟩) (fun _ => ⟨m, rfl, hm⟩)
      simp only [List.flatMap_append, List.flatMap_singleton]
      exact List.cons_prefix_cons.mpr ⟨rfl, (List.prefix_append_right_inj _).mpr hw⟩
    | panicked => exact h.elim
    | hello | awaitingWelcome | sending _ _ _ _ | draining _ => exact False.elim ho
  · exact .pushing st m ms rs r w hm hms h ho

/-- What is written in the push phase is a prefix of whole rounds. -/
theorem frames_of_fits {st : ConnState} (rs : List Round) {r : Round} {w : List Frame}
    (h : Fits r w st) :
    .hello c.hello :: (rs.flatMap Round.frames ++ w) <+:
      .hello c.hello :: (rs ++ [r]).flatMap Round.frames := by
  simp only [List.flatMap_append, List.flatMap_singleton]
  refine List.cons_prefix_cons.mpr ⟨rfl, (List.prefix_append_right_inj _).mpr ?_⟩
  cases st with
  | sending f stage d r' => exact (List.prefix_append _ _).trans h.2.2.2
  | draining d => exact h ▸ List.prefix_rfl
  | done res => exact h.2
  | _ => exact h.elim

theorem inv_fail {k : Conn} {f : Frame} {e : String} {wrote : Bool}
    (hp : k.frames ++ [f] <+: .hello c.hello :: k.rounds.flatMap Round.frames)
    (hw : 1 < k.frames.length + 1 → k.Welcomed c) : Conn.Inv c (k.fail f e wrote) := by
  refine .ended _ trivial ?_ (fun h => hw ?_) (fun h => by cases h)
  · cases wrote
    · exact (List.prefix_append _ _).trans hp
    · exact hp
  · cases wrote <;> simp [fail] at h <;> omega

/-- The first answer starts the push phase, or ends the connection with no round sent. -/
theorem inv_welcome (m : Incoming) (r : Round) :
    Conn.Inv c ((⟨.awaitingWelcome, [.hello c.hello], [], [], false⟩ : Conn).welcome c m r) := by
  unfold welcome
  split
  · next d hd =>
    have hm := Client.isWelcome_of_ok hd
    refine inv_of_fits [] hm ?_ (fits_loopTop d r)
    obtain ⟨s, _, _, rfl, _⟩ := hm
    simp [Incoming.Ends]
  · exact .ended _ trivial List.prefix_rfl (fun h => by simp at h) (fun h => by cases h)
  · exact .ended _ trivial List.prefix_rfl (fun h => by simp at h) (fun h => by cases h)

/-- A message of the push phase ends the connection, or is passed over. -/
theorem inv_drain {m : Incoming} {ms : List Incoming} (rs : List Round) {r : Round}
    {w : List Frame} {d : Duration} (x : Incoming) (hm : c.IsWelcome m)
    (hms : ∀ y ∈ m :: ms, ¬ y.Ends) (hf : Fits r w (.draining d)) :
    Conn.Inv c ⟨drain d x, .hello c.hello :: (rs.flatMap Round.frames ++ w), rs ++ [r],
      m :: ms ++ [x], false⟩ := by
  match x with
  | none | some (.error e) | some (.ok .close) =>
    exact .ended _ trivial (frames_of_fits rs hf) (fun _ => ⟨m, rfl, hm⟩)
      (fun _ => ⟨m, rfl, hm⟩)
  | some (.ok (.text s)) | some (.ok .binary) | some (.ok .ping) | some (.ok .pong) =>
    refine .pushing _ m (ms ++ [_]) rs r w hm ?_ hf id
    intro y hy
    rw [← List.cons_append, List.mem_append, List.mem_singleton] at hy
    rcases hy with hy | rfl
    · exact hms y hy
    · exact id

theorem inv_step {k k' : Conn} {e : ConnEvent} (hi : Conn.Inv c k) (h : k.step c e = some k') :
    Conn.Inv c k' := by
  cases hi with
  | hello =>
    cases e with
    | sent => cases h; exact .awaiting
    | sendFailed e wrote => cases h; exact inv_fail List.prefix_rfl (fun h => by simp at h)
    | recv m r | slept r | stopped => cases h
  | awaiting =>
    cases e with
    | recv m r =>
      cases h
      exact inv_welcome m r
    | sent | sendFailed e wrote | slept r | stopped => cases h
  | pushing st m ms rs r w hm hms hf ho =>
    cases st with
    | sending f stage d r' =>
      obtain ⟨rfl, rfl, rfl, hp⟩ := hf
      cases e with
      | sent =>
        cases h
        have := inv_of_fits rs hm hms (fits_afterSend (c := c) d hp)
        simpa using this
      | sendFailed e wrote =>
        cases h
        refine inv_fail ?_ (fun _ => ⟨m, rfl, hm⟩)
        simp only [List.flatMap_append, List.flatMap_singleton, List.cons_append,
          List.append_assoc]
        exact List.cons_prefix_cons.mpr ⟨rfl, (List.prefix_append_right_inj _).mpr hp⟩
      | recv m r | slept r | stopped => cases h
    | draining d =>
      have hw : w = r.frames := hf
      cases e with
      | recv x r' =>
        cases h
        exact inv_drain rs x hm hms hf
      | slept r' =>
        cases h
        subst hw
        have := inv_of_fits (rs ++ [r]) hm hms (fits_loopTop (c := c) d r')
        simpa using this
      | stopped =>
        cases h
        exact .ended _ trivial (frames_of_fits rs hf) (fun _ => ⟨m, rfl, hm⟩)
          (fun _ => ⟨m, rfl, hm⟩)
      | sent | sendFailed e wrote => cases h
    | done res => exact absurd trivial ho
    | panicked => exact absurd trivial ho
    | hello => exact hf.elim
    | awaitingWelcome => exact hf.elim
  | ended _ ho _ _ _ => rw [step_of_over ho] at h; cases h

theorem inv_of_reaches {es : List ConnEvent} {k : Conn} (h : (session c).Reaches es k) :
    Conn.Inv c k :=
  h.inv (P := Conn.Inv c) inv_begin fun _ e _ hi he => inv_step (e := e) hi he

theorem Inv.frames {k : Conn} (hi : Conn.Inv c k) :
    k.frames <+: .hello c.hello :: k.rounds.flatMap Round.frames := by
  cases hi with
  | hello => exact List.nil_prefix
  | awaiting => exact List.prefix_rfl
  | pushing st m ms rs r w _ _ hf _ => exact frames_of_fits rs hf
  | ended _ _ hp _ _ => exact hp

theorem Inv.welcomed {k : Conn} (hi : Conn.Inv c k) (h : 1 < k.frames.length) : k.Welcomed c := by
  cases hi with
  | hello => simp at h
  | awaiting => simp at h
  | pushing st m ms rs r w hm _ _ _ => exact ⟨m, rfl, hm⟩
  | ended _ _ _ hw _ => exact hw h

/-- Nothing is received or written after a close, the end of the stream or an error: the session is
over. -/
theorem over_of_ends {k : Conn} (hi : Conn.Inv c k)
    (h : k.sendFailed = true ∨ ∃ m ∈ k.received, m.Ends) : k.state.IsOver := by
  cases hi with
  | hello | awaiting => simp at h
  | pushing st m ms rs r w _ hms _ _ =>
    rcases h with h | ⟨x, hx, he⟩
    · cases h
    · exact absurd he (hms x hx)
  | ended _ ho _ _ _ => exact ho

end Conn

/-! ## Panics -/

/-- A welcome whose interval is `2^64` seconds or more. -/
def Client.IntervalTooLong (c : Client) (m : Incoming) : Prop :=
  ∃ s hostId q, m = some (.ok (.text s)) ∧ c.serde.fromStr s = .ok (.welcome hostId (some q)) ∧
    2 ^ 64 ≤ q

namespace Conn

/-- The first message received is a welcome with too long an interval. -/
def Overflowed (c : Client) (k : Conn) : Prop :=
  ∃ m, k.received.head? = some m ∧ c.IntervalTooLong m

theorem not_panicked_of_fits {r : Round} {w : List Frame} {st : ConnState} (h : Fits r w st) :
    st ≠ .panicked := by
  rintro rfl
  exact h

theorem not_panicked_of_pushing {k k' : Conn} {e : ConnEvent} {r : Round} {w : List Frame}
    (hf : Fits r w k.state) (h : k.step c e = some k') : k'.state ≠ .panicked := by
  cases step_moves h with
  | sent f stage d r' hs =>
    rw [hs] at hf
    obtain ⟨rfl, rfl, rfl, hp⟩ := hf
    exact not_panicked_of_fits (fits_afterSend (c := c) d hp)
  | slept d r' _ => exact not_panicked_of_fits (fits_loopTop (c := c) d r')
  | drained d m r' _ =>
    match m with
    | none | some (.error _) | some (.ok .close) => exact fun h => by cases h
    | some (.ok (.text _)) | some (.ok .binary) | some (.ok .ping) | some (.ok .pong) =>
      exact fun h => by cases h
  | failed | stopped => exact fun h => by cases h
  | helloSent hs | helloFailed _ _ hs | answered _ _ hs =>
    rw [hs] at hf
    exact hf.elim

theorem panicked_step {k k' : Conn} {e : ConnEvent} (hi : Conn.Inv c k)
    (hp : k.state = .panicked ↔ k.Overflowed c) (h : k.step c e = some k') :
    k'.state = .panicked ↔ k'.Overflowed c := by
  cases hi with
  | hello =>
    cases e with
    | sent | sendFailed e wrote => cases h; simp [Overflowed, fail]
    | recv m r | slept r | stopped => cases h
  | awaiting =>
    cases e with
    | recv m r =>
      cases h
      have hx := c.awaitWelcome_isPanic m
      have ho : ∀ k : Conn, k.received = [m] →
          (k.Overflowed c ↔ (c.awaitWelcome m).isPanic = true) := by
        intro k hk
        rw [hx]
        simp [Overflowed, Client.IntervalTooLong, hk]
      unfold welcome
      split
      · next d hd =>
        rw [ho _ rfl, hd]
        simpa using not_panicked_of_fits (fits_loopTop (c := c) d r)
      · next hd => rw [ho _ rfl, hd]; simp
      · next hd => rw [ho _ rfl, hd]; simp
    | sent | sendFailed e wrote | slept r | stopped => cases h
  | pushing st m ms rs r w hm hms hf ho =>
    have hn := not_panicked_of_pushing (c := c) hf h
    have hs : st ≠ .panicked := not_panicked_of_fits hf
    obtain ⟨ms', hms'⟩ := received_step h
    refine iff_of_false hn ?_
    rintro ⟨x, hx, hl⟩
    rw [← hms'] at hx
    exact hs (hp.mpr ⟨x, hx, hl⟩)
  | ended _ ho _ _ _ => rw [step_of_over ho] at h; cases h

/-- **When `connect_and_push` panics.** After any run of a connection, the first message received
was a welcome with an interval of `2^64` seconds or more, or the code did not panic. -/
theorem no_panic_iff {es : List ConnEvent} {k : Conn} (h : (session c).Reaches es k) :
    k.state ≠ .panicked ↔ ∀ m, k.received.head? = some m → ¬ c.IntervalTooLong m := by
  have : k.state = .panicked ↔ k.Overflowed c := by
    refine h.hist (P := fun _ k => k.state = .panicked ↔ k.Overflowed c) ?_ ?_
    · refine iff_of_false ?_ (by simp [session, begin, Overflowed])
      simp only [session, begin]
      split <;> exact fun h => by cases h
    · intro es e k k' hr hp he
      exact panicked_step (inv_of_reaches hr) hp he
  rw [Ne, this, Overflowed]
  push Not
  rfl

end Conn

/-! ## A hub that answers with a huge interval -/

def longWelcome : String := "\x7b\"t\":\"welcome\",\"host_id\":1,\"interval\":1e20\x7d"

def shortWelcome : String := "\x7b\"t\":\"welcome\",\"host_id\":1,\"interval\":5\x7d"

def labSerde : Serde where
  parse s :=
    let frame interval := Json.obj [("t", .str "welcome"), ("host_id", .num (.posInt 1)),
      ("interval", .num interval)]
    if s = longWelcome then .ok (frame (.float (10 ^ 20)))
    else if s = shortWelcome then .ok (frame (.posInt 5))
    else .error "expected value at line 1 column 1"
  reject _ := "missing field"
  toString _ := .ok ()

def lab : Client where
  key := "k"
  hostName := "lab"
  tags := []
  samplerInterval := ⟨5, by norm_num, by norm_num⟩
  gethostname := some "lab"
  osRelease := none
  arch := "x86_64"
  parallelism := some 1
  serde := labSerde

theorem lab_longWelcome : lab.IntervalTooLong (some (.ok (.text longWelcome))) :=
  ⟨longWelcome, some 1, 10 ^ 20, rfl, rfl, by norm_num⟩

theorem lab_shortWelcome : ¬ lab.IntervalTooLong (some (.ok (.text shortWelcome))) := by
  rintro ⟨s, hostId, q, hs, hf, hq⟩
  cases hs
  cases hf
  have h5 : UInt64.toNat 5 = 5 := rfl
  norm_num [JsonNumber.asF64, natToF64, h5] at hq

/-- The code panics on a welcome with an interval of `1e20` seconds. -/
theorem panics_on_longWelcome : ∃ k, (session lab).Reaches
    [.sent, .recv (some (.ok (.text longWelcome))) ⟨0, .default, 0⟩] k ∧ k.state = .panicked := by
  have hp := (lab.awaitWelcome_isPanic _).mpr lab_longWelcome
  refine ⟨_, rfl, ?_⟩
  unfold Conn.welcome
  split
  · next h => rw [h] at hp; cases hp
  · next h => rw [h] at hp; cases hp
  · rfl

theorem no_panic_on_shortWelcome : ∃ k, (session lab).Reaches
    [.sent, .recv (some (.ok (.text shortWelcome))) ⟨0, .default, 0⟩] k ∧ k.state ≠ .panicked := by
  have hr : (session lab).Reaches
      [.sent, .recv (some (.ok (.text shortWelcome))) ⟨0, .default, 0⟩] _ := rfl
  refine ⟨_, hr, (Conn.no_panic_iff hr).mpr ?_⟩
  intro m hm
  rw [Conn.welcome_received] at hm
  cases hm
  exact lab_shortWelcome

end Vigil.Hub

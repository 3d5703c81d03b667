import Vigil.Hub.Session

/-!
# Control messages in the handshake

A hub may send WebSocket pings and pongs at any time, and the stream hands them
to the code like any other message. `push_loop` passes over them; the one-shot
match in front of it takes them for the answer to hello. `Enters` is what a
stream of messages makes of the handshake, and `control_harmless_iff` says when
inserting control messages before the first text frame changes that.
-/

namespace Vigil.Hub

open Vigil.Lib

def Message.IsControl : Message → Prop
  | .ping | .pong => True
  | .text _ | .binary | .close => False

def Message.IsText : Message → Prop
  | .text _ => True
  | .binary | .ping | .pong | .close => False

/-- The inner loop of the push phase passes over control messages. -/
theorem drain_control {m : Message} (h : m.IsControl) (d : Duration) :
    drain d (some (.ok m)) = .draining d := by
  cases m with
  | ping | pong => rfl
  | text _ | binary | close => exact h.elim

/-- `WithControl ms ms'`: `ms'` is `ms` with control messages inserted before its first text. -/
inductive WithControl : List (Except String Message) → List (Except String Message) → Prop where
  | same (ms : List (Except String Message)) : WithControl ms ms
  | control {ms ms' : List (Except String Message)} (m : Message) : m.IsControl →
      WithControl ms ms' → WithControl ms (.ok m :: ms')
  | keep {ms ms' : List (Except String Message)} (x : Except String Message) :
      (∀ m, x = .ok m → ¬ m.IsText) → WithControl ms ms' → WithControl (x :: ms) (x :: ms')

def StartsWithControl (ms : List (Except String Message)) : Prop :=
  ∃ m, ms.head? = some (.ok m) ∧ m.IsControl

/-- An insertion leaves the first message alone or puts a control message in its place. -/
theorem WithControl.head {ms ms' : List (Except String Message)} (h : WithControl ms ms') :
    ms'.head? = ms.head? ∨ StartsWithControl ms' := by
  cases h with
  | same => exact .inl rfl
  | control m hm _ => exact .inr ⟨m, rfl, hm⟩
  | keep x _ _ => exact .inl rfl

/-! ## The outcome of the handshake -/

/-- What `rx.next()` yields of a stream of messages and errors: all of it, and then its end. -/
def inbound (ms : List (Except String Message)) : List Incoming := ms.map some ++ [none]

variable (c : Client)

/-- Some run on the stream gets to `push_loop` with the interval `d`: the message that answers hello
is read from the stream, and it is accepted. -/
def Enters (ms : List (Except String Message)) (d : Duration) : Prop :=
  ∃ es k m, (session c).Reaches es k ∧ k.state = .awaitingWelcome ∧
    k.received ++ [m] <+: inbound ms ∧ c.awaitWelcome m = .ok d

def Client.Greets : Prop := ∃ u, c.serde.toString (.hello c.hello) = .ok u

def Client.Accepts (m : Incoming) : Prop := c.IsWelcome m ∧ ¬ c.IntervalTooLong m

variable {c}

theorem Client.accepts_iff {m : Incoming} :
    c.Accepts m ↔ ∃ d, c.awaitWelcome m = .ok d := by
  constructor
  · rintro ⟨⟨s, hostId, interval, rfl, hf⟩, hl⟩
    have hp : (c.awaitWelcome (some (.ok (.text s)))).isPanic ≠ true :=
      fun h => hl ((c.awaitWelcome_isPanic _).mp h)
    simp only [awaitWelcome, hf, pushInterval] at hp ⊢
    cases hd : fromSecsF64
        ((F64.fin (interval.getD c.samplerInterval.secs)).max (.fin (1 / 10))) with
    | none =>
      rw [hd] at hp
      exact absurd rfl hp
    | some d => exact ⟨d, rfl⟩
  · rintro ⟨d, hd⟩
    refine ⟨isWelcome_of_ok hd, fun hl => ?_⟩
    have hp := (c.awaitWelcome_isPanic m).mpr hl
    rw [hd] at hp
    cases hp

theorem inbound_head (ms : List (Except String Message)) (m : Incoming) :
    [m] <+: inbound ms ↔ m = ms.head? := by
  cases ms with
  | nil => simp [inbound, List.cons_prefix_cons]
  | cons x xs => simp [inbound, List.cons_prefix_cons]

/-- What is under way began with a hello. -/
theorem Conn.greets_of_reaches {es : List ConnEvent} {k : Conn} (hr : (session c).Reaches es k)
    (hk : ¬ k.state.IsOver) : c.Greets := by
  refine hr.inv (P := fun k => ¬ k.state.IsOver → c.Greets) ?_ ?_ hk
  · intro h
    cases hs : c.serde.toString (.hello c.hello) with
    | ok u => exact ⟨u, hs⟩
    | error e =>
      refine absurd ?_ h
      simp [session, begin, hs, ConnState.IsOver]
  · intro k e k' hi hs _
    apply hi
    intro ho
    have hn := step_of_over (c := c) (e := e) ho
    rw [show k.step c e = some k' from hs] at hn
    cases hn

theorem Conn.received_of_awaiting {es : List ConnEvent} {k : Conn}
    (hr : (session c).Reaches es k) (hk : k.state = .awaitingWelcome) : k.received = [] := by
  cases inv_of_reaches hr with
  | hello => cases hk
  | awaiting => rfl
  | pushing st m ms rs r w _ _ hf _ =>
    dsimp only at hk
    rw [hk] at hf
    exact hf.elim
  | ended _ ho =>
    rw [hk] at ho
    exact ho.elim

theorem Client.Greets.reaches (h : c.Greets) : (session c).Reaches [.sent]
    ⟨.awaitingWelcome, [.hello c.hello], [], [], false⟩ := by
  obtain ⟨u, hu⟩ := h
  have hb : (session c).init = ⟨.hello, [], [], [], false⟩ := by simp [session, Conn.begin, hu]
  rw [Machine.Reaches, hb]
  rfl

/-- **The first message decides.** -/
theorem enters_iff {ms : List (Except String Message)} {d : Duration} :
    Enters c ms d ↔ c.Greets ∧ c.awaitWelcome ms.head? = .ok d := by
  constructor
  · rintro ⟨es, k, m, hr, hk, hp, hd⟩
    rw [Conn.received_of_awaiting hr hk, List.nil_append, inbound_head] at hp
    rw [← hp]
    exact ⟨Conn.greets_of_reaches hr (by rw [hk]; exact id), hd⟩
  · rintro ⟨hg, hd⟩
    exact ⟨_, _, ms.head?, hg.reaches, rfl, (inbound_head ms _).mpr rfl, hd⟩

theorem StartsWithControl.refused {ms : List (Except String Message)} (h : StartsWithControl ms)
    (d : Duration) : c.awaitWelcome ms.head? ≠ .ok d := by
  obtain ⟨m, hm, hc⟩ := h
  rw [hm]
  cases m with
  | ping | pong => exact fun h => by cases h
  | text _ | binary | close => exact hc.elim

/-- **When control messages are harmless.** Inserting them before the first text frame leaves the
outcome of the handshake as it is exactly when none of them comes before an acceptable welcome that
would have been the answer to hello. -/
theorem control_harmless_iff {ms ms' : List (Except String Message)} (h : WithControl ms ms') :
    (∀ d, Enters c ms' d ↔ Enters c ms d) ↔
      (c.Greets → StartsWithControl ms' → ¬ c.Accepts ms.head?) := by
  constructor
  · intro heq hg hc ha
    obtain ⟨d, hd⟩ := Client.accepts_iff.mp ha
    have henters := (heq d).mpr (enters_iff.mpr ⟨hg, hd⟩)
    exact hc.refused d (enters_iff.mp henters).2
  · intro hcond d
    rw [enters_iff, enters_iff]
    refine and_congr_right fun hg => ?_
    rcases h.head with he | hc
    · rw [he]
    · refine iff_of_false (hc.refused d) fun hd => ?_
      exact hcond hg hc (Client.accepts_iff.mpr ⟨d, hd⟩)

/-! ## A ping before the welcome -/

theorem lab_awaitWelcome :
    lab.awaitWelcome (some (.ok (.text shortWelcome))) = .ok lab.samplerInterval := by
  with_unfolding_all rfl

/-- One ping turns an accepted welcome into a refused handshake. -/
theorem ping_breaks_handshake :
    WithControl [.ok (.text shortWelcome)] [.ok .ping, .ok (.text shortWelcome)] ∧
      Enters lab [.ok (.text shortWelcome)] lab.samplerInterval ∧
      ∀ d, ¬ Enters lab [.ok .ping, .ok (.text shortWelcome)] d := by
  have hg : lab.Greets := ⟨(), rfl⟩
  refine ⟨.control .ping trivial (.same _), enters_iff.mpr ⟨hg, lab_awaitWelcome⟩, fun d hd => ?_⟩
  have hc : StartsWithControl [.ok .ping, .ok (.text shortWelcome)] := ⟨.ping, rfl, trivial⟩
  exact hc.refused d (enters_iff.mp hd).2

/-- A pong behind a first frame that is no text does no more harm. -/
theorem control_harmless_pong :
    WithControl [.ok .binary, .ok (.text shortWelcome)]
        [.ok .binary, .ok .pong, .ok (.text shortWelcome)] ∧
      ∀ d, Enters lab [.ok .binary, .ok .pong, .ok (.text shortWelcome)] d ↔
        Enters lab [.ok .binary, .ok (.text shortWelcome)] d := by
  have hw : WithControl [.ok .binary, .ok (.text shortWelcome)]
      [.ok .binary, .ok .pong, .ok (.text shortWelcome)] :=
    .keep _ (fun m hm => by cases hm; exact id) (.control .pong trivial (.same _))
  refine ⟨hw, (control_harmless_iff hw).mpr fun _ hc _ => ?_⟩
  obtain ⟨m, hm, hcm⟩ := hc
  cases hm
  exact hcm

end Vigil.Hub

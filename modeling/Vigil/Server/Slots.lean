import Mathlib.Data.Int.Notation
import Vigil.Server.Ws

/-!
# Session slots

A session takes a slot when `run_session` is first polled and gives it back
when its `push_loop` returns, through whichever of its exits. `slots_exact` is
the account of the slots over any run; `refused_connect` says what a `GET
/connect` that is turned away leaves behind.
-/

namespace Vigil.Server

open Vigil.Lib

def Poll.leaves : Poll → Bool
  | .suspended _ => false
  | .returned _ => true

namespace Event

/-- The poll of a `push_loop` that an event stands for. -/
def poll? : Event → Option Poll
  | .start _ buf | .wake _ buf => some (PushLoop.top buf)
  | .sent _ r => some (PushLoop.sent r)
  | .recv _ m => some (PushLoop.recv m)
  | .createWorker _ _ | .expire _ | .connect _ | .upgraded _ | .upgradeFailed _ | .closed _ => none

def enters : Event → Bool
  | .start _ _ => true
  | _ => false

def leaves (e : Event) : Bool := e.poll?.any Poll.leaves

end Event

/-- Above zero nothing wraps. -/
theorem fetchSub_of_pos {n : Nat} (h : 0 < n) : (fetchSub n : ℤ) = n - 1 := by
  rw [fetchSub, if_neg (by omega)]
  omega

namespace WsServer

variable {max : Nat} {es : List Event} {s s' : WsServer}

theorem poll_activeWs (s : WsServer) (k : Nat) (r : Poll) : (s.poll k r).activeWs =
    match r with
    | .suspended _ => s.activeWs
    | .returned _ => fetchSub s.activeWs := by
  cases r <;> rfl

theorem active_pos {k : Nat} {p : PushPhase} (hr : (server max).Reaches es s)
    (hk : s.sessions[k]? = some (.pushing p)) : 0 < s.activeWs := by
  rw [active_eq_counted hr]
  exact List.countP_pos_iff.mpr ⟨_, List.mem_of_getElem? hk, rfl⟩

theorem connect_activeWs (s : WsServer) (q : Option String) :
    (s.connect q).2.activeWs = s.activeWs := by
  have ha := connect_answers s q
  generalize s.connect q = r at ha ⊢
  cases ha <;> rfl

theorem poll_account (k : Nat) (r : Poll) (h : 0 < s.activeWs) :
    ((s.poll k r).activeWs : ℤ) = s.activeWs - r.leaves.toNat := by
  rw [poll_activeWs]
  cases r with
  | suspended p => simp [Poll.leaves]
  | returned r => exact fetchSub_of_pos h

/-- **One step of the account**, over the integers: the counter never wraps. -/
theorem active_step (hr : (server max).Reaches es s) {e : Event} (hs : s.step e = some s') :
    (s'.activeWs : ℤ) = s.activeWs + e.enters.toNat - e.leaves.toNat := by
  cases e with
  | createWorker id host => cases hs; simp [createWorker, Event.enters, Event.leaves, Event.poll?]
  | expire id =>
    obtain ⟨w, -, rfl⟩ := Option.map_eq_some_iff.mp hs
    simp [Event.enters, Event.leaves, Event.poll?]
  | connect q =>
    cases hs
    simp [connect_activeWs, Event.enters, Event.leaves, Event.poll?]
  | upgraded k | upgradeFailed k | closed k =>
    simp only [step, at?_eq_some] at hs
    obtain ⟨-, rfl⟩ := hs
    simp [setPhase, Event.enters, Event.leaves, Event.poll?]
  | start k buf =>
    simp only [step, at?_eq_some] at hs
    obtain ⟨-, rfl⟩ := hs
    rw [poll_account k _ (Nat.succ_pos _)]
    rfl
  | sent k r | wake k buf | recv k m =>
    simp only [step, at?_eq_some] at hs
    obtain ⟨hk, rfl⟩ := hs
    rw [poll_account k _ (active_pos hr hk)]
    simp [Event.enters, Event.leaves, Event.poll?]

theorem active_account (hr : (server max).Reaches es s) :
    s.activeWs + es.countP Event.leaves = es.countP Event.enters := by
  refine hr.hist (P := fun es s => s.activeWs + es.countP Event.leaves = es.countP Event.enters)
    rfl ?_
  intro es e s s' h hi hs
  have hstep := active_step h hs
  rw [List.countP_append, List.countP_append, List.countP_singleton, List.countP_singleton]
  generalize e.enters = b at hstep ⊢
  generalize e.leaves = c at hstep ⊢
  cases b <;> cases c <;> simp at hstep ⊢ <;> omega

end WsServer

/-- **No slot leaks.** In every reachable state `active_ws` is the number of sessions in their push
loop, those that have entered it and not left it; every step moves it by the sessions that enter and
leave theirs, and it never wraps; and with no session left in its loop it is back to 0, so that a
pending worker is connected again. -/
theorem slots_exact {max : Nat} {es : List Event} {s : WsServer} (hr : (server max).Reaches es s) :
    s.activeWs = s.counted ∧
      s.activeWs + es.countP Event.leaves = es.countP Event.enters ∧
      (∀ e s', s.step e = some s' → e.leaves.toNat ≤ s.activeWs + e.enters.toNat ∧
        (s'.activeWs : ℤ) = s.activeWs + e.enters.toNat - e.leaves.toNat) ∧
      ((∀ p ∈ s.sessions, p.isCounted = false) → s.activeWs = 0 ∧
        ∀ id ∈ s.workers.registry.inner, id ≠ "" → 0 < max →
          (s.connect (some id)).1.status = 101) := by
  refine ⟨WsServer.active_eq_counted hr, WsServer.active_account hr, fun e s' hs => ?_,
    fun hend => ?_⟩
  · have h := WsServer.active_step hr hs
    exact ⟨by omega, h⟩
  · have h0 : s.activeWs = 0 := by
      rw [WsServer.active_eq_counted hr]
      exact List.countP_eq_zero.mpr fun p hp => by simp [hend p hp]
    refine ⟨h0, fun id hid hne hmax => ?_⟩
    have hm := WsServer.max_eq hr
    have ha := WsServer.connect_answers s (some id)
    generalize s.connect (some id) = r at ha ⊢
    cases ha with
    | missing h => exact absurd h hne
    | invalid _ h => exact absurd hid h
    | full _ _ h => omega
    | upgrade _ _ _ => rfl

/-- Two sessions on a server with one slot: the buffer of the first is no UTF-8, the client of the
second closes. -/
def oneAfterAnother : List Event :=
  [.createWorker "a" none, .createWorker "b" none, .createWorker "c" none, .connect (some "a"),
    .upgraded 0, .start 0 (.error "invalid utf-8 sequence"), .connect (some "b"), .upgraded 1,
    .start 1 (.ok ""), .sent 1 (.ok ()), .recv 1 .other, .recv 1 .close, .closed 1]

theorem slots_exact_oneAfterAnother :
    ∃ s, (server 1).Reaches oneAfterAnother s ∧ s.sessions = [.closing, .ended] ∧
      s.activeWs = 0 ∧ (s.connect (some "c")).1.status = 101 := by
  have hrun : ∃ s, (server 1).Reaches oneAfterAnother s ∧ s.sessions = [.closing, .ended] ∧
      s.workers.registry.inner = {"c"} := ⟨_, rfl, rfl, by decide⟩
  obtain ⟨s, hr, hs, hw⟩ := hrun
  have hend : ∀ p ∈ s.sessions, p.isCounted = false := by
    rw [hs]
    decide
  have h := (slots_exact hr).2.2.2 hend
  exact ⟨s, hr, hs, h.1, h.2 "c" (by rw [hw]; decide) (by decide) (by decide)⟩

/-! ## Connects that are turned away -/

namespace WsServer

variable {max : Nat}

/-- No step but its own issue makes an id pending. -/
theorem not_pending_step {id : String} {s s' : WsServer} {e : Event}
    (he : ∀ host, e ≠ .createWorker id host) (hp : id ∉ s.workers.registry.inner)
    (hs : s.step e = some s') : id ∉ s'.workers.registry.inner := by
  cases e with
  | createWorker i host =>
    cases hs
    intro hm
    rcases WorkerRegistry.mem_issue.mp hm with rfl | hm
    · exact he host rfl
    · exact hp hm
  | expire i =>
    obtain ⟨w, hw, rfl⟩ := Option.map_eq_some_iff.mp hs
    obtain ⟨-, rfl⟩ := Office.expire_eq_some.mp hw
    exact fun hm => hp (WorkerRegistry.mem_expire.mp hm).2
  | connect q =>
    cases hs
    rw [connect_workers]
    split
    · exact hp
    · exact fun hm => hp (WorkerRegistry.mem_claim.mp hm).2
  | upgraded k | upgradeFailed k | closed k =>
    simp only [step, at?_eq_some] at hs
    obtain ⟨-, rfl⟩ := hs
    exact hp
  | start k buf | sent k r | wake k buf | recv k m =>
    simp only [step, at?_eq_some] at hs
    obtain ⟨-, rfl⟩ := hs
    rw [poll_workers]
    exact hp

theorem connect_unknown {s : WsServer} {q : Option String} (hne : q.getD "" ≠ "")
    (hid : q.getD "" ∉ s.workers.registry.inner) : (s.connect q).1.status = 403 := by
  have ha := connect_answers s q
  generalize s.connect q = r at ha ⊢
  cases ha with
  | missing h => exact absurd h hne
  | invalid _ _ => rfl
  | full _ h _ => exact absurd h hid
  | upgrade _ h _ => exact absurd h hid

end WsServer

/-- **What a refused connect changes.** One that is answered 400 or 403 leaves the pending ids,
`active_ws` and the sessions as they were. One that is answered 503 leaves `active_ws`, the sessions
and every other pending id as they were and spends its own, single-use as it is: until it is issued
again it is not pending, and no connect with it gets through. -/
theorem refused_connect (s : WsServer) (q : Option String) :
    ((s.connect q).1.status = 400 ∨ (s.connect q).1.status = 403 →
      (s.connect q).2.workers.registry.inner = s.workers.registry.inner ∧
        (s.connect q).2.activeWs = s.activeWs ∧ (s.connect q).2.sessions = s.sessions) ∧
    ((s.connect q).1.status = 503 →
      q.getD "" ∈ s.workers.registry.inner ∧
        (s.connect q).2.workers.registry.inner = s.workers.registry.inner.erase (q.getD "") ∧
        (s.connect q).2.activeWs = s.activeWs ∧ (s.connect q).2.sessions = s.sessions ∧
        ∀ max es t, (∀ host, Event.createWorker (q.getD "") host ∉ es) →
          (server max).run (s.connect q).2 es = some t → (t.connect q).1.status = 403) := by
  have ha := WsServer.connect_answers s q
  generalize s.connect q = r at ha ⊢
  constructor
  · rintro (h | h)
    all_goals cases ha with
    | missing _ => exact ⟨rfl, rfl, rfl⟩
    | invalid _ hid => exact ⟨Finset.erase_eq_of_notMem hid, rfl, rfl⟩
    | full _ _ _ | upgrade _ _ _ => cases h
  · intro h
    cases ha with
    | missing _ | invalid _ _ | upgrade _ _ _ => cases h
    | full hne hid _ =>
      refine ⟨hid, rfl, rfl, rfl, fun max es t hes ht => ?_⟩
      have hgone : q.getD "" ∉ t.workers.registry.inner :=
        Machine.run_preserves_of
          (P := fun s : WsServer => q.getD "" ∉ s.workers.registry.inner)
          (C := fun e => ∀ host, e ≠ .createWorker (q.getD "") host)
          (fun s e s' he hp hs => WsServer.not_pending_step he hp hs)
          (fun e he host heq => hes host (by rwa [heq] at he)) ht
          (fun hm => (WorkerRegistry.mem_claim.mp hm).1 rfl)
      exact WsServer.connect_unknown hne hgone

/-- A server with one slot, which is taken when `b` connects. -/
def takenSlot : List Event :=
  [.createWorker "a" none, .createWorker "b" none, .connect (some "a"), .upgraded 0,
    .start 0 (.ok "")]

/-- `b` is refused for want of a slot and is lost to its client before it expires. -/
theorem refused_connect_spends : ∃ s, (server 1).Reaches takenSlot s ∧
    "b" ∈ s.workers.registry.inner ∧ "b" ∈ s.workers.expiring ∧
      (s.connect (some "b")).1.status = 503 ∧
      "b" ∉ (s.connect (some "b")).2.workers.registry.inner ∧
      ((s.connect (some "b")).2.connect (some "b")).1.status = 403 :=
  ⟨_, rfl, by decide, by decide, by decide, by decide, by decide⟩

theorem refused_connect_takenSlot : ∃ s, (server 1).Reaches takenSlot s ∧
    (s.connect (some "b")).1.status = 503 ∧
      ∀ max es t, (∀ host, Event.createWorker "b" host ∉ es) →
        (server max).run (s.connect (some "b")).2 es = some t →
          (t.connect (some "b")).1.status = 403 :=
  ⟨_, rfl, by decide, ((refused_connect _ (some "b")).2 (by decide)).2.2.2.2⟩

end Vigil.Server

import Mathlib.Data.List.Count
import Vigil.Server.Worker

/-!
# The WebSocket server

`server max` is the collector's HTTP server as far as WebSocket sessions go:
`POST /worker`, `GET /connect`, and every session that was answered 101. The
runtime is single-threaded, so what runs between two await points is one step:

* `connect` claims the worker id and compares `active_ws` with the cap, and
  answers; the upgrade it starts is completed later by another task;
* `run_session` counts the session (`fetch_add`) when it is first polled, runs
  `push_loop`, and gives the slot back (`fetch_sub`) when the loop returns;
* `push_loop` alternates between sending a frame and draining what the client
  sent until the next push is due.

A session is numbered by its place in `WsServer.sessions`, the list of all
sessions ever answered 101.
-/

namespace Vigil.Server

open Vigil.Lib Vigil.Lib.Ticket

/-! ## Requests -/

structure Response where
  status : Nat
  body : String
  deriving DecidableEq

structure WorkerResponse where
  id : Option String
  url : Option String
  message : String

/-- The await points of `push_loop`. -/
inductive PushPhase where
  | sending
  | draining
  deriving DecidableEq

/-- Where a session answered 101 stands. -/
inductive Phase where
  /-- the response is out and the upgrade has not completed -/
  | answered
  /-- the socket is there and `run_session` has not been polled yet -/
  | upgraded
  | pushing (p : PushPhase)
  /-- `push_loop` has returned and the slot is given back; the socket is being closed -/
  | closing
  | ended
  deriving DecidableEq

/-- The fields of `AppState` that the handlers of this module use. -/
structure AppState where
  workers : Office
  maxWsConnections : Nat
  activeWs : Nat
  deriving DecidableEq

structure WsServer extends AppState where
  sessions : List Phase
  deriving DecidableEq

/-- `AtomicUsize::fetch_sub(1)`: it wraps at zero. -/
def fetchSub (n : Nat) : Nat := if n = 0 then UInt64.size - 1 else n - 1

namespace WsServer

def new (max : Nat) : WsServer := ⟨⟨.new, max, 0⟩, []⟩

def createWorker (s : WsServer) (id : String) (host : Option String) : WorkerResponse × WsServer :=
  let host := host.getD ""
  let url := if host = "" then none else some s!"ws://{host}/connect?id={id}"
  (⟨some id, url, "Websocket connection ready (Worker expires in 5 seconds if unclaimed)."⟩,
    { s with workers := s.workers.issue id })

def connect (s : WsServer) (q : Option String) : Response × WsServer :=
  let id := q.getD ""
  if id = "" then (⟨400, "missing worker id"⟩, s)
  else if (s.workers.claim id).1 then
    let s := { s with workers := (s.workers.claim id).2 }
    if s.maxWsConnections ≤ s.activeWs then
      (⟨503, "Server is at full capacity. Please try again later."⟩, s)
    else (⟨101, ""⟩, { s with sessions := s.sessions ++ [.answered] })
  else (⟨403, "Invalid worker id"⟩, { s with workers := (s.workers.claim id).2 })

/-- The four answers of `connect`, by the checks they come from. -/
inductive Answers (s : WsServer) (id : String) : Response × WsServer → Prop where
  | missing : id = "" → Answers s id (⟨400, "missing worker id"⟩, s)
  | invalid : id ≠ "" → id ∉ s.workers.registry.inner → Answers s id
      (⟨403, "Invalid worker id"⟩, { s with workers := (s.workers.claim id).2 })
  | full : id ≠ "" → id ∈ s.workers.registry.inner → s.maxWsConnections ≤ s.activeWs →
      Answers s id (⟨503, "Server is at full capacity. Please try again later."⟩,
        { s with workers := (s.workers.claim id).2 })
  | upgrade : id ≠ "" → id ∈ s.workers.registry.inner → s.activeWs < s.maxWsConnections →
      Answers s id (⟨101, ""⟩,
        { s with
          workers := (s.workers.claim id).2
          sessions := s.sessions ++ [.answered] })

theorem connect_answers (s : WsServer) (q : Option String) :
    Answers s (q.getD "") (s.connect q) := by
  unfold connect
  by_cases h0 : q.getD "" = ""
  · rw [if_pos h0]
    exact .missing h0
  rw [if_neg h0]
  by_cases h1 : (s.workers.claim (q.getD "")).1 = true
  · rw [if_pos h1]
    have hm := WorkerRegistry.claim_fst.mp h1
    by_cases h2 : s.maxWsConnections ≤ s.activeWs
    · rw [if_pos h2]
      exact .full h0 hm h2
    · rw [if_neg h2]
      exact .upgrade h0 hm (Nat.lt_of_not_le h2)
  · rw [if_neg h1]
    exact .invalid h0 fun hm => h1 (WorkerRegistry.claim_fst.mpr hm)

def setPhase (s : WsServer) (k : Nat) (p : Phase) : WsServer :=
  { s with sessions := s.sessions.set k p }

end WsServer

/-! ## Sessions -/

/-- What `socket.recv()` yields. -/
inductive Received where
  | close
  | eof
  | other
  | error (msg : String)

/-- `push_loop` after one poll: suspended at an await point, or returned. -/
inductive Poll where
  | suspended (p : PushPhase)
  | returned (r : Except String Unit)

namespace PushLoop

/-- The top of the loop: `buf` is the `ws_system` buffer just loaded, decoded as UTF-8. -/
def top : Except String String → Poll
  | .ok _ => .suspended .sending
  | .error e => .returned (.error e)

def sent : Except String Unit → Poll
  | .ok _ => .suspended .draining
  | .error e => .returned (.error e)

def recv : Received → Poll
  | .close | .eof => .returned (.ok ())
  | .other => .suspended .draining
  | .error e => .returned (.error e)

end PushLoop

/-- `run_session` of session `k` around one poll of its `push_loop`. -/
def WsServer.poll (s : WsServer) (k : Nat) : Poll → WsServer
  | .suspended p => s.setPhase k (.pushing p)
  | .returned _ => { s.setPhase k .closing with activeWs := fetchSub s.activeWs }

inductive Event where
  | createWorker (id : String) (host : Option String)
  | expire (id : String)
  | connect (id : Option String)
  | upgraded (k : Nat)
  | upgradeFailed (k : Nat)
  /-- `run_session` is polled for the first time -/
  | start (k : Nat) (buf : Except String String)
  | sent (k : Nat) (r : Except String Unit)
  /-- the sleep until the next push is over -/
  | wake (k : Nat) (buf : Except String String)
  | recv (k : Nat) (m : Received)
  /-- `socket.close()` is done -/
  | closed (k : Nat)

namespace WsServer

/-- `f s` if session `k` stands at `p`. -/
def at? (s : WsServer) (k : Nat) (p : Phase) (f : WsServer → WsServer) : Option WsServer :=
  if s.sessions[k]? = some p then some (f s) else none

def step (s : WsServer) : Event → Option WsServer
  | .createWorker id host => some (s.createWorker id host).2
  | .expire id => (s.workers.expire id).map fun w => { s with workers := w }
  | .connect id => some (s.connect id).2
  | .upgraded k => s.at? k .answered (·.setPhase k .upgraded)
  | .upgradeFailed k => s.at? k .answered (·.setPhase k .ended)
  -- `fetch_add` would wrap with 2^64 sockets open at once
  | .start k buf =>
    s.at? k .upgraded fun s => { s with activeWs := s.activeWs + 1 }.poll k (PushLoop.top buf)
  | .sent k r => s.at? k (.pushing .sending) (·.poll k (PushLoop.sent r))
  | .wake k buf => s.at? k (.pushing .draining) (·.poll k (PushLoop.top buf))
  | .recv k m => s.at? k (.pushing .draining) (·.poll k (PushLoop.recv m))
  | .closed k => s.at? k .closing (·.setPhase k .ended)

end WsServer

def server (max : Nat) : Machine WsServer Event where
  init := .new max
  step := WsServer.step

/-! ## Counting sessions -/

/-- The session is answered 101 and `run_session` has not counted it yet. -/
def Phase.isWaiting : Phase → Bool
  | .answered | .upgraded => true
  | _ => false

/-- The session runs its push loop: between `fetch_add` and `fetch_sub`. -/
def Phase.isCounted : Phase → Bool
  | .pushing _ => true
  | _ => false

namespace WsServer

def waiting (s : WsServer) : Nat := s.sessions.countP Phase.isWaiting

def counted (s : WsServer) : Nat := s.sessions.countP Phase.isCounted

/-- Sessions admitted and not ended: answered 101, and neither failed to upgrade nor returned from
their push loop. -/
def live (s : WsServer) : Nat := s.waiting + s.counted

/-- `e` is a `GET /connect` that passes all three checks of the handler. -/
def admits (s : WsServer) : Event → Prop
  | .connect q => q.getD "" ≠ "" ∧ q.getD "" ∈ s.workers.registry.inner ∧
      s.activeWs < s.maxWsConnections
  | _ => False

/-- What one step can do to the sessions and the counter. -/
inductive Moves (s : WsServer) (e : Event) : WsServer → Prop where
  | accept (w : Office) : s.admits e →
      Moves s e { s with workers := w, sessions := s.sessions ++ [.answered] }
  | idle (w : Office) : ¬ s.admits e → Moves s e { s with workers := w }
  /-- neither counted before nor after, or both -/
  | phase (k : Nat) (p q : Phase) : ¬ s.admits e → s.sessions[k]? = some p →
      q.isCounted = p.isCounted → (q.isWaiting = true → p.isWaiting = true) →
      Moves s e { s with sessions := s.sessions.set k q }
  | count (k : Nat) (p q : Phase) : ¬ s.admits e → s.sessions[k]? = some p →
      p.isWaiting = true → q.isCounted = true →
      Moves s e { s with activeWs := s.activeWs + 1, sessions := s.sessions.set k q }
  | uncount (k : Nat) (p q : Phase) : ¬ s.admits e → s.sessions[k]? = some p →
      p.isCounted = true → q.isWaiting = false → q.isCounted = false →
      Moves s e { s with activeWs := fetchSub s.activeWs, sessions := s.sessions.set k q }

theorem at?_eq_some {s s' : WsServer} {k : Nat} {p : Phase} {f : WsServer → WsServer} :
    s.at? k p f = some s' ↔ s.sessions[k]? = some p ∧ f s = s' := by
  simp [at?]

theorem moves_poll {s : WsServer} {e : Event} {k : Nat} {p : PushPhase} (ha : ¬ s.admits e)
    (hk : s.sessions[k]? = some (.pushing p)) (r : Poll) : Moves s e (s.poll k r) := by
  cases r with
  | suspended q => exact .phase k _ (.pushing q) ha hk rfl (fun h => by cases h)
  | returned r => exact .uncount k _ .closing ha hk rfl rfl rfl

theorem moves_start {s : WsServer} {e : Event} {k : Nat} (ha : ¬ s.admits e)
    (hk : s.sessions[k]? = some .upgraded) (r : Poll) :
    Moves s e ({ s with activeWs := s.activeWs + 1 }.poll k r) := by
  cases r with
  | suspended q => exact .count k _ (.pushing q) ha hk rfl rfl
  | returned r => exact .phase k _ .closing ha hk rfl (fun h => by cases h)

theorem moves_connect (s : WsServer) (q : Option String) :
    Moves s (.connect q) (s.connect q).2 := by
  have ha := connect_answers s q
  generalize s.connect q = r at ha ⊢
  cases ha with
  | missing h0 => exact .idle s.workers fun h => h.1 h0
  | invalid h0 h1 => exact .idle _ fun h => h1 h.2.1
  | full h0 h1 h2 => exact .idle _ fun h => absurd h.2.2 (Nat.not_lt.mpr h2)
  | upgrade h0 h1 h2 => exact .accept _ ⟨h0, h1, h2⟩

theorem step_moves {s s' : WsServer} {e : Event} (h : s.step e = some s') : Moves s e s' := by
  cases e with
  | createWorker id host => cases h; exact .idle _ not_false
  | expire id =>
    obtain ⟨w, -, rfl⟩ := Option.map_eq_some_iff.mp h
    exact .idle w not_false
  | connect q => cases h; exact moves_connect s q
  | upgraded k =>
    simp only [step, at?_eq_some] at h
    obtain ⟨hk, rfl⟩ := h
    exact .phase k _ .upgraded not_false hk rfl fun _ => rfl
  | upgradeFailed k =>
    simp only [step, at?_eq_some] at h
    obtain ⟨hk, rfl⟩ := h
    exact .phase k _ .ended not_false hk rfl fun h => by cases h
  | start k buf =>
    simp only [step, at?_eq_some] at h
    obtain ⟨hk, rfl⟩ := h
    exact moves_start (e := .start k buf) not_false hk _
  | sent k r =>
    simp only [step, at?_eq_some] at h
    obtain ⟨hk, rfl⟩ := h
    exact moves_poll (e := .sent k r) not_false hk _
  | wake k buf =>
    simp only [step, at?_eq_some] at h
    obtain ⟨hk, rfl⟩ := h
    exact moves_poll (e := .wake k buf) not_false hk _
  | recv k m =>
    simp only [step, at?_eq_some] at h
    obtain ⟨hk, rfl⟩ := h
    exact moves_poll (e := .recv k m) not_false hk _
  | closed k =>
    simp only [step, at?_eq_some] at h
    obtain ⟨hk, rfl⟩ := h
    exact .phase k _ .ended not_false hk rfl fun h => by cases h

/-! ## The office of the server -/

theorem connect_workers (s : WsServer) (q : Option String) : (s.connect q).2.workers =
    if q.getD "" = "" then s.workers else (s.workers.claim (q.getD "")).2 := by
  have ha := connect_answers s q
  generalize s.connect q = r at ha ⊢
  cases ha with
  | missing h0 => rw [if_pos h0]
  | invalid h0 | full h0 | upgrade h0 => rw [if_neg h0]

theorem poll_workers (s : WsServer) (k : Nat) (r : Poll) : (s.poll k r).workers = s.workers := by
  cases r <;> rfl

def officeEvents : Event → List (Ticket.Event String)
  | .createWorker id _ => [.issue id]
  | .expire id => [.expire id]
  | .connect q => if q.getD "" = "" then [] else [.claim (q.getD "")]
  | .upgraded _ | .upgradeFailed _ | .start _ _ | .sent _ _ | .wake _ _ | .recv _ _
  | .closed _ => []

/-- Only the requests and the expiry tasks touch the registry. -/
theorem office_step {s s' : WsServer} {e : Event} (h : s.step e = some s') :
    office.run s.workers (officeEvents e) = some s'.workers := by
  cases e with
  | createWorker id host => cases h; rfl
  | expire id =>
    obtain ⟨w, hw, rfl⟩ := Option.map_eq_some_iff.mp h
    show (s.workers.expire id).bind _ = _
    rw [hw]
    rfl
  | connect q =>
    cases h
    rw [connect_workers, officeEvents]
    split <;> rfl
  | upgraded k | upgradeFailed k | closed k =>
    simp only [step, at?_eq_some] at h
    obtain ⟨-, rfl⟩ := h
    rfl
  | start k buf | sent k r | wake k buf | recv k m =>
    simp only [step, at?_eq_some] at h
    obtain ⟨-, rfl⟩ := h
    rw [poll_workers]
    rfl

/-- **The server runs a worker office.** -/
theorem office_reaches {max : Nat} {es : List Event} {s : WsServer}
    (h : (server max).Reaches es s) : office.Reaches (es.flatMap officeEvents) s.workers :=
  h.sim (N := office) (f := fun s => s.workers) rfl fun _ _ _ hs => office_step hs

/-! ## The cap -/

theorem countP_set {p : Phase → Bool} {l : List Phase} {k : Nat} {x y : Phase}
    (h : l[k]? = some x) :
    (l.set k y).countP p + (if p x then 1 else 0) = l.countP p + (if p y then 1 else 0) := by
  obtain ⟨hk, rfl⟩ := List.getElem?_eq_some_iff.mp h
  rw [List.countP_set hk]
  by_cases hx : p l[k] = true
  · have : 0 < l.countP p := List.countP_pos_iff.mpr ⟨_, List.getElem_mem hk, hx⟩
    simp only [hx, if_true]; omega
  · simp only [hx]; simp

theorem countP_set_le {p : Phase → Bool} {l : List Phase} {k : Nat} {x y : Phase}
    (h : l[k]? = some x) (hp : p y = true → p x = true) : (l.set k y).countP p ≤ l.countP p := by
  have hset := countP_set (p := p) (y := y) h
  by_cases hy : p y = true
  · rw [if_pos hy, if_pos (hp hy)] at hset
    omega
  · rw [if_neg hy] at hset
    omega

theorem active_eq_counted {max : Nat} {es : List Event} {s : WsServer}
    (h : (server max).Reaches es s) : s.activeWs = s.counted := by
  refine h.inv (P := fun s => s.activeWs = s.counted) rfl ?_
  intro s e s' hi he
  cases step_moves he with
  | accept w ha => simp [counted, List.countP_append, hi, Phase.isCounted]
  | idle w ha => exact hi
  | phase k p q ha hk hc hw =>
    have := countP_set (p := Phase.isCounted) (y := q) hk
    simp only [hc] at this
    simp only [counted] at hi ⊢; omega
  | count k p q ha hk hp hq =>
    have := countP_set (p := Phase.isCounted) (y := q) hk
    have hpc : p.isCounted = false := by cases p <;> simp_all [Phase.isWaiting, Phase.isCounted]
    simp only [hq, hpc, if_true, Bool.false_eq_true, if_false] at this
    simp only [counted] at hi ⊢; omega
  | uncount k p q ha hk hp hqw hq =>
    have := countP_set (p := Phase.isCounted) (y := q) hk
    simp only [hp, hq, if_true, Bool.false_eq_true, if_false] at this
    simp only [counted] at hi ⊢
    rw [fetchSub, if_neg (by omega)]; omega

theorem max_eq {max : Nat} {es : List Event} {s : WsServer} (h : (server max).Reaches es s) :
    s.maxWsConnections = max := by
  refine h.inv (P := fun s => s.maxWsConnections = max) rfl ?_
  intro s e s' hi he
  cases step_moves he <;> exact hi

theorem live_eq (s : WsServer) :
    s.live = s.sessions.countP fun p => p.isWaiting || p.isCounted := by
  rw [live, waiting, counted]
  induction s.sessions with
  | nil => rfl
  | cons p l ih =>
    simp only [List.countP_cons, ← ih]
    cases p <;> simp [Phase.isWaiting, Phase.isCounted] <;> omega

theorem live_accept {s : WsServer} (w : Office) :
    ({ s with workers := w, sessions := s.sessions ++ [.answered] } : WsServer).live =
      s.live + 1 := by
  rw [live_eq, live_eq, List.countP_append]
  rfl

theorem live_le_of_not_admits {s s' : WsServer} {e : Event} (he : s.step e = some s')
    (ha : ¬ s.admits e) : s'.live ≤ s.live := by
  rw [live_eq, live_eq]
  cases step_moves he with
  | accept w h => exact absurd h ha
  | idle w _ => exact Nat.le_refl _
  | phase k p q _ hk hc hw =>
    refine countP_set_le hk fun h => ?_
    rw [Bool.or_eq_true, hc] at h
    exact (Bool.or_eq_true ..).mpr (h.imp_left hw)
  | count k p q _ hk hp hq => exact countP_set_le hk fun _ => by rw [hp, Bool.true_or]
  | uncount k p q _ hk hp hqw hq => exact countP_set_le hk fun _ => by rw [hp, Bool.or_true]

theorem live_of_admits {s s' : WsServer} {e : Event} (he : s.step e = some s')
    (ha : s.admits e) : s'.live = s.live + 1 := by
  cases step_moves he with
  | accept w _ => exact live_accept w
  | idle w h => exact absurd ha h
  | phase _ _ _ h | count _ _ _ h | uncount _ _ _ h => exact absurd ha h

def WithinCap (max : Nat) (s : WsServer) : Prop := s.live ≤ max ∧ s.activeWs ≤ max

/-- A connect that passes the checks of the handler finds room for one more session when those that
are admitted and not counted yet are added to `active_ws`. -/
def AdmitsWithRoom (s : WsServer) (e : Event) : Prop :=
  s.admits e → s.activeWs + s.waiting < s.maxWsConnections

end WsServer

/-- **The cap on concurrent sessions.** A run keeps within the cap throughout exactly when no
session is admitted while the ones still waiting to be counted fill the room that `active_ws`
leaves. -/
theorem ws_cap_iff {max : Nat} {es : List Event} {t : WsServer} (h : (server max).Reaches es t) :
    (server max).Always (WsServer.WithinCap max) es ↔
      (server max).EachStep WsServer.AdmitsWithRoom es := by
  refine Machine.always_iff_eachStep ⟨Nat.zero_le _, Nat.zero_le _⟩ ?_ h
  intro es e s s' hr hp he
  have hact := WsServer.active_eq_counted hr
  have hact' := WsServer.active_eq_counted (hr.snoc he)
  have hmax := WsServer.max_eq hr
  have hlive : s.live = s.activeWs + s.waiting := by rw [hact, WsServer.live, Nat.add_comm]
  have hle : s'.activeWs ≤ s'.live := by rw [hact']; exact Nat.le_add_left _ _
  unfold WsServer.WithinCap WsServer.AdmitsWithRoom
  by_cases ha : s.admits e
  · have := WsServer.live_of_admits he ha
    exact ⟨fun hs _ => by omega, fun hc => by have := hc ha; omega⟩
  · have := WsServer.live_le_of_not_admits he ha
    exact ⟨fun _ h => absurd h ha, fun _ => by have := hp.1; omega⟩

/-- Two handshakes that interleave: with room for one session, both connects are answered before
either session is counted. -/
def twoConnects : List Event :=
  [.createWorker "a" none, .createWorker "b" none, .connect (some "a"), .connect (some "b"),
    .upgraded 0, .upgraded 1, .start 0 (.ok ""), .start 1 (.ok "")]

def twoConnectsEnd : WsServer :=
  ⟨⟨⟨⟨∅⟩, ["b", "a"], [("a", true), ("b", true)]⟩, 1, 2⟩, [.pushing .sending, .pushing .sending]⟩

theorem ws_cap_exceeded :
    ∃ s, (server 1).Reaches twoConnects s ∧ s.live = 2 ∧ s.activeWs = 2 :=
  ⟨twoConnectsEnd, rfl, rfl, rfl⟩

/-- One of the two admissions has no room. -/
theorem ws_cap_iff_twoConnects : (server 1).Reaches twoConnects twoConnectsEnd ∧
    ¬ (server 1).EachStep WsServer.AdmitsWithRoom twoConnects := by
  have hr : (server 1).Reaches twoConnects twoConnectsEnd := rfl
  refine ⟨hr, fun h => ?_⟩
  have hw := ((ws_cap_iff hr).mpr h).last hr
  exact absurd hw.1 (by decide)

end Vigil.Server

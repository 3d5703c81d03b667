import Mathlib.Data.Finset.Card
import Vigil.Lib.Timed
import Vigil.Server.Ws
import Vigil.Startup

/-!
# The timers of the server

Two kinds of sleeps run beside the requests: the expiry task of each worker id,
and the pause of each push loop. `serverClock` adds them to `server`.

* `worker_lifetime`: an id can be claimed for five seconds, and no longer than
  the scheduler is late.
* `registry_bounded`: the registry holds no more ids than were asked for in that
  time.
* `push_paced`: a session loads its next frame no sooner than `push_interval`
  after it loaded the one before, however its client drains and floods it.
-/

namespace Vigil.Server

open Vigil.Lib

/-- `EXPIRY`, in seconds. -/
def expiry : ℚ := 5

/-- What `push_loop` remembers: `started`, and the end of the sleep it has pinned. -/
structure PushClock where
  started : ℚ
  wakeAt : ℚ

structure ServerTimes where
  /-- the expiry tasks that sleep, with the end of their sleep -/
  expiries : List (String × ℚ)
  pushes : Nat → PushClock

namespace ServerTimes

def setPush (m : ServerTimes) (k : Nat) (c : PushClock) : ServerTimes :=
  { m with pushes := fun j => if j = k then c else m.pushes j }

@[simp] theorem setPush_expiries (m : ServerTimes) (k : Nat) (c : PushClock) :
    (m.setPush k c).expiries = m.expiries := rfl

@[simp] theorem setPush_self (m : ServerTimes) (k : Nat) (c : PushClock) :
    (m.setPush k c).pushes k = c := if_pos rfl

theorem setPush_other (m : ServerTimes) {j k : Nat} (c : PushClock) (h : j ≠ k) :
    (m.setPush k c).pushes j = m.pushes j := if_neg h

end ServerTimes

def dueAt (t : ℚ) (id : String) (x : String × ℚ) : Bool := x.1 = id && x.2 ≤ t

/-- The timers of a server that pushes every `interval`. -/
def serverClock (interval : Duration) : Clock WsServer Event ServerTimes where
  start := ⟨[], fun _ => ⟨0, 0⟩⟩
  ready m t
    | .expire id => m.expiries.any (dueAt t id)
    | .wake k _ => (m.pushes k).wakeAt ≤ t
    | _ => true
  note _ m t e _ :=
    match e with
    | .createWorker id _ => { m with expiries := (id, t + expiry) :: m.expiries }
    | .expire id => { m with expiries := m.expiries.eraseP (dueAt t id) }
    | .start k _ | .wake k _ => m.setPush k { m.pushes k with started := t }
    | .sent k (.ok _) =>
      -- `interval.saturating_sub(elapsed)`
      let wait := max (interval.secs - (t - (m.pushes k).started)) 0
      m.setPush k { m.pushes k with wakeAt := t + wait }
    | _ => m

def timedServer (cap : Nat) (interval : Duration) :
    Machine (Timed WsServer ServerTimes) (ℚ × Event) := (server cap).timed (serverClock interval)

/-! ## Expiry -/

def Event.issues : Event → Option String
  | .createWorker id _ => some id
  | _ => none

def issued (es : List (ℚ × Event)) : List (String × ℚ) :=
  es.filterMap fun e => e.2.issues.map fun id => (id, e.1)

theorem issued_snoc (es : List (ℚ × Event)) (e : ℚ × Event) :
    issued (es ++ [e]) = issued es ++ (e.2.issues.map fun id => (id, e.1)).toList := by
  rw [issued, List.filterMap_append]
  cases h : e.2.issues <;> simp [issued, h]

/-- No expiry task is more than `lag` late when the event happens. -/
def OnTime (lag : ℚ) (s : Timed WsServer ServerTimes) (e : ℚ × Event) : Prop :=
  ∀ x ∈ s.mem.expiries, e.1 ≤ x.2 + lag

/-- How the registry and the expiry tasks relate to what was issued. -/
structure Expiring (es : List (ℚ × Event)) (s : Timed WsServer ServerTimes) : Prop where
  armed : ∀ x ∈ s.mem.expiries, ∃ t, (x.1, t) ∈ issued es ∧ x.2 = t + expiry
  pending : ∀ id ∈ s.state.workers.registry.inner, ∃ d, (id, d) ∈ s.mem.expiries
  /-- an id goes by a claim, or by the end of its five seconds -/
  kept : ∀ x ∈ issued es, (∀ e ∈ es, e.2 ≠ .connect (some x.1)) →
    x.1 ∈ s.state.workers.registry.inner ∨ ∃ t, (x.1, t) ∈ issued es ∧ t + expiry ≤ s.now

/-- What a step does to the registration of an id. -/
theorem registry_step {s s' : WsServer} {e : Event} (h : s.step e = some s') (id : String) :
    id ∈ s'.workers.registry.inner ↔ e.issues = some id ∨
      (id ∈ s.workers.registry.inner ∧ e ≠ .expire id ∧ ¬ (e = .connect (some id) ∧ id ≠ "")) := by
  have ho := WsServer.office_step h
  cases e with
  | createWorker i host =>
    rw [← Option.some.inj ho]
    simp [Event.issues, Office.issue, eq_comm]
  | expire i =>
    obtain ⟨w, hw, hs⟩ := Option.bind_eq_some_iff.mp ho
    obtain ⟨-, rfl⟩ := Office.expire_eq_some.mp hw
    rw [← Option.some.inj hs]
    simp [Event.issues, and_comm, eq_comm]
  | connect q =>
    simp only [WsServer.officeEvents] at ho
    split at ho
    · next hq =>
      rw [← Option.some.inj ho]
      simp only [Event.issues, reduceCtorEq, false_or, ne_eq, not_false_eq_true, true_and,
        Event.connect.injEq]
      refine (and_iff_left ?_).symm
      rintro ⟨rfl, hne⟩
      exact hne hq
    · next hq =>
      have hconn : q = some id ∧ id ≠ "" ↔ id = q.getD "" := by
        cases q with
        | none => simp at hq
        | some i =>
          simp only [Option.getD_some] at hq
          constructor
          · rintro ⟨h, -⟩
            exact (Option.some.inj h).symm
          · rintro rfl
            exact ⟨rfl, hq⟩
      rw [← Option.some.inj ho]
      simp [Event.issues, Office.claim, hconn, and_comm]
  | upgraded k | upgradeFailed k | start k buf | sent k r | wake k buf | recv k m | closed k =>
    rw [← Option.some.inj ho]
    simp [Event.issues]

/-- What a step at `t` does to the expiry tasks. -/
structure ExpiriesStep (t : ℚ) (e : Event) (xs xs' : List (String × ℚ)) : Prop where
  mem : ∀ x ∈ xs', x ∈ xs ∨ e.issues = some x.1 ∧ x.2 = t + expiry
  spawned : ∀ id, e.issues = some id → (id, t + expiry) ∈ xs'
  stays : ∀ x ∈ xs, e ≠ .expire x.1 → x ∈ xs'
  woke : ∀ id, e = .expire id → ∃ x ∈ xs, x.1 = id ∧ x.2 ≤ t

variable {cap : Nat} {interval : Duration}

theorem expiriesStep {s s' : Timed WsServer ServerTimes} {e : ℚ × Event}
    (hs : (timedServer cap interval).step s e = some s') :
    ExpiriesStep e.1 e.2 s.mem.expiries s'.mem.expiries := by
  have ht := Machine.timedStep hs
  have hready := ht.ready
  obtain ⟨t, e⟩ := e
  rw [ht.mem]
  have hsame : ∀ {m : ServerTimes}, m.expiries = s.mem.expiries → e.issues = none →
      (∀ id, e ≠ .expire id) → ExpiriesStep t e s.mem.expiries m.expiries := by
    intro m hm hi he
    rw [hm]
    exact ⟨fun x hx => .inl hx, fun id h => (nomatch hi.symm.trans h), fun x hx _ => hx,
      fun id h => absurd h (he id)⟩
  cases e with
  | createWorker id host =>
    refine ⟨fun x hx => ?_, fun i hi => ?_, fun x hx _ => List.mem_cons_of_mem _ hx, nofun⟩
    · rcases List.mem_cons.mp hx with rfl | hx
      · exact .inr ⟨rfl, rfl⟩
      · exact .inl hx
    · obtain rfl : id = i := Option.some.inj hi
      exact List.mem_cons_self
  | expire id =>
    refine ⟨fun x hx => .inl (List.mem_of_mem_eraseP hx), nofun, fun x hx hne => ?_, ?_⟩
    · refine (List.mem_eraseP_of_neg ?_).mpr hx
      have hne : x.1 ≠ id := fun h => hne (h ▸ rfl)
      simp [dueAt, hne]
    · intro i hi
      cases hi
      obtain ⟨x, hx, hdue⟩ := List.any_eq_true.mp hready
      exact ⟨x, hx, by simpa [dueAt] using hdue⟩
  | sent k r => cases r <;> exact hsame rfl rfl nofun
  | connect q | upgraded k | upgradeFailed k | start k buf | wake k buf | recv k m | closed k =>
    exact hsame rfl rfl nofun

theorem expiring_step {es : List (ℚ × Event)} {e : ℚ × Event} {s s' : Timed WsServer ServerTimes}
    (hi : Expiring es s) (hs : (timedServer cap interval).step s e = some s') :
    Expiring (es ++ [e]) s' := by
  have ht := Machine.timedStep hs
  have hreg := registry_step ht.step
  have hexp := expiriesStep hs
  have hnow : s.now ≤ s'.now := ht.now ▸ ht.later
  have hmem : ∀ x, x ∈ issued (es ++ [e]) ↔ x ∈ issued es ∨ e.2.issues = some x.1 ∧ x.2 = e.1 := by
    intro x
    rw [issued_snoc, List.mem_append]
    cases e.2.issues with
    | none => simp
    | some id => simp [Prod.ext_iff, eq_comm]
  refine ⟨fun x hx => ?_, fun id hid => ?_, fun x hx hcl => ?_⟩
  · rcases hexp.mem x hx with hx | ⟨hx, hd⟩
    · obtain ⟨t, hx, hd⟩ := hi.armed x hx
      exact ⟨t, (hmem _).mpr (.inl hx), hd⟩
    · exact ⟨e.1, (hmem _).mpr (.inr ⟨hx, rfl⟩), hd⟩
  · rcases (hreg id).mp hid with hid | ⟨hid, hne, -⟩
    · exact ⟨_, hexp.spawned id hid⟩
    · obtain ⟨d, hd⟩ := hi.pending id hid
      exact ⟨d, hexp.stays _ hd hne⟩
  · rcases (hmem x).mp hx with hx | ⟨hx, -⟩
    · have hcl' := hcl e (List.mem_append_right _ (List.mem_singleton_self e))
      rcases hi.kept x hx fun y hy => hcl y (List.mem_append_left _ hy) with hr | ⟨t, ht, hd⟩
      · by_cases he : e.2 = .expire x.1
        · -- the task that wakes is one of this id, five seconds old
          obtain ⟨y, hy, hyx, hdue⟩ := hexp.woke _ he
          obtain ⟨t, hy, hd⟩ := hi.armed y hy
          exact .inr ⟨t, (hmem _).mpr (.inl (hyx ▸ hy)), by rw [ht.now, ← hd]; exact hdue⟩
        · exact .inl ((hreg _).mpr (.inr ⟨hr, he, fun h => hcl' h.1⟩))
      · exact .inr ⟨t, (hmem _).mpr (.inl ht), hd.trans hnow⟩
    · exact .inl ((hreg _).mpr (.inl hx))

theorem expiring_of_reaches {es : List (ℚ × Event)} {s : Timed WsServer ServerTimes}
    (hr : (timedServer cap interval).Reaches es s) : Expiring es s :=
  hr.hist (P := Expiring) ⟨List.forall_mem_nil _, fun _ h => absurd h (WorkerRegistry.mem_new _),
    List.forall_mem_nil _⟩ fun _ _ _ _ _ hi hs => expiring_step hi hs

/-- On a scheduler that is never more than `lag` late, no expiry task is overdue by more. -/
theorem due_of_onTime {lag : ℚ} (hl : 0 ≤ lag) {es : List (ℚ × Event)}
    {s : Timed WsServer ServerTimes} (ho : (timedServer cap interval).EachStep (OnTime lag) es)
    (hr : (timedServer cap interval).Reaches es s) : ∀ x ∈ s.mem.expiries, s.now ≤ x.2 + lag := by
  refine ho.hist (P := fun _ s => ∀ x ∈ s.mem.expiries, s.now ≤ x.2 + lag)
    (List.forall_mem_nil _) ?_ hr
  intro es e s s' _ hot _ hs x hx
  rw [(Machine.timedStep hs).now]
  rcases (expiriesStep hs).mem x hx with hx | ⟨-, hd⟩
  · exact hot x hx
  · rw [hd, expiry]
    linarith

/-- A request with an id is answered 403 exactly when the id is not registered. -/
theorem connect_status {s : WsServer} {id : String} (hid : id ≠ "") :
    (s.connect (some id)).1.status = 403 ↔ id ∉ s.workers.registry.inner := by
  have ha := WsServer.connect_answers s (some id)
  rw [Option.getD_some] at ha
  generalize s.connect (some id) = r at ha ⊢
  cases ha with
  | missing h => exact absurd h hid
  | invalid _ h => exact iff_of_true rfl h
  | full _ h | upgrade _ h => exact iff_of_false (by simp) fun hn => hn h

/-- **Five seconds.** An id that nobody has claimed is good for a `GET /connect` until five seconds
after it was issued, and it is answered 403 from then on, once the scheduler has had time to expire
it. -/
theorem worker_lifetime {es : List (ℚ × Event)} {s : Timed WsServer ServerTimes}
    (hr : (timedServer cap interval).Reaches es s) (hd : ((issued es).map Prod.fst).Nodup)
    {id : String} {t : ℚ} (hi : (id, t) ∈ issued es) (hid : id ≠ "") :
    (s.now < t + expiry → (∀ e ∈ es, e.2 ≠ .connect (some id)) →
      (s.state.connect (some id)).1.status ≠ 403) ∧
    ∀ lag t', OnTime lag s (t', .connect (some id)) → t + expiry + lag < t' →
      (s.state.connect (some id)).1.status = 403 := by
  have hx := expiring_of_reaches hr
  have honce : ∀ t', (id, t') ∈ issued es → t' = t := fun t' ht' =>
    congrArg Prod.snd (List.inj_on_of_nodup_map hd ht' hi rfl)
  constructor
  · intro hnow hcl
    rw [Ne, connect_status hid, not_not]
    rcases hx.kept _ hi hcl with hm | ⟨t', ht', hle⟩
    · exact hm
    · obtain rfl := honce t' ht'
      exact absurd hnow (not_lt.mpr hle)
  · intro lag t' hot hlt
    rw [connect_status hid]
    intro hm
    obtain ⟨d, hdue⟩ := hx.pending id hm
    obtain ⟨t₀, ht₀, he⟩ := hx.armed _ hdue
    obtain rfl := honce t₀ ht₀
    have hle : t' ≤ d + lag := hot _ hdue
    rw [show d = t₀ + expiry from he] at hle
    exact absurd hlt (not_lt.mpr hle)

/-- Two ids, of which one is claimed in time and the other expires a moment late. -/
def oneClaimed : List (ℚ × Event) :=
  [(0, .createWorker "a" none), (1, .createWorker "b" none), (2, .connect (some "b"))]

def oneExpired : List (ℚ × Event) := oneClaimed ++ [(51 / 10, .expire "a"), (6, .expire "b")]

theorem worker_lifetime_oneExpired :
    (∃ s, (timedServer 10 second).Reaches oneClaimed s ∧
      (s.state.connect (some "a")).1.status ≠ 403) ∧
    ∃ s, (timedServer 10 second).Reaches oneExpired s ∧
      (s.state.connect (some "a")).1.status = 403 := by
  have hclaimed : ∃ s, (timedServer 10 second).Reaches oneClaimed s ∧ s.now = 2 := by
    with_unfolding_all exact ⟨_, rfl, rfl⟩
  have hexpired : ∃ s, (timedServer 10 second).Reaches oneExpired s ∧ s.mem.expiries = [] := by
    with_unfolding_all exact ⟨_, rfl, rfl⟩
  obtain ⟨s, hr, hnow⟩ := hclaimed
  obtain ⟨s', hr', hex⟩ := hexpired
  have hi : ("a", 0) ∈ issued oneClaimed := List.mem_cons_self
  have hi' : ("a", 0) ∈ issued oneExpired := List.mem_cons_self
  refine ⟨⟨s, hr, (worker_lifetime hr (by decide) hi (by decide)).1 ?_ ?_⟩,
    s', hr', (worker_lifetime hr' (by decide) hi' (by decide)).2 1 7 ?_ ?_⟩
  · rw [hnow, expiry]
    norm_num
  · simp [oneClaimed]
  · rw [OnTime, hex]
    exact List.forall_mem_nil _
  · rw [expiry]
    norm_num

/-- **The registry is bounded.** It holds no id that was not issued in the last five seconds and the
time the scheduler may be late, so no more ids than requests for one fell into that time. -/
theorem registry_bounded {lag : ℚ} (hl : 0 ≤ lag) {es : List (ℚ × Event)}
    {s : Timed WsServer ServerTimes} (ho : (timedServer cap interval).EachStep (OnTime lag) es)
    (hr : (timedServer cap interval).Reaches es s) :
    s.state.workers.registry.inner.card ≤
      ((issued es).filter fun x => s.now ≤ x.2 + expiry + lag).length := by
  have hx := expiring_of_reaches hr
  have hdue := due_of_onTime hl ho hr
  have hsub : s.state.workers.registry.inner ⊆
      (((issued es).filter fun x => s.now ≤ x.2 + expiry + lag).map Prod.fst).toFinset := by
    intro id hid
    obtain ⟨d, hd⟩ := hx.pending id hid
    obtain ⟨t, ht, he⟩ := hx.armed _ hd
    have hle := hdue _ hd
    rw [show d = t + expiry from he] at hle
    rw [List.mem_toFinset]
    exact List.mem_map.mpr ⟨(id, t), List.mem_filter.mpr ⟨ht, by simpa using hle⟩, rfl⟩
  calc s.state.workers.registry.inner.card
      ≤ (((issued es).filter fun x => s.now ≤ x.2 + expiry + lag).map Prod.fst).toFinset.card :=
        Finset.card_le_card hsub
    _ ≤ (((issued es).filter fun x => s.now ≤ x.2 + expiry + lag).map Prod.fst).length :=
        List.toFinset_card_le _
    _ = _ := List.length_map _

/-- An id that is never claimed, and whose task wakes half a second late. -/
def unclaimed : List (ℚ × Event) := [(0, .createWorker "a" none)] ++ [(11 / 2, .expire "a")]

theorem registry_bounded_unclaimed :
    ∃ s, (timedServer 10 second).Reaches unclaimed s ∧
      s.state.workers.registry.inner.card ≤
        ((issued unclaimed).filter fun x => s.now ≤ x.2 + expiry + 1 / 2).length := by
  have hasked : ∃ s, (timedServer 10 second).Reaches [(0, .createWorker "a" none)] s ∧
      s.mem.expiries = [("a", 0 + expiry)] := by
    with_unfolding_all exact ⟨_, rfl, rfl⟩
  have hrun : ∃ s, (timedServer 10 second).Reaches unclaimed s := by
    with_unfolding_all exact ⟨_, rfl⟩
  obtain ⟨s₀, hr₀, hex⟩ := hasked
  obtain ⟨s, hr⟩ := hrun
  have hfirst : (timedServer 10 second).EachStep (OnTime (1 / 2)) [(0, .createWorker "a" none)] :=
    Machine.EachStep.nil.snoc (e := (0, Event.createWorker "a" none)) fun s hs => by
      rw [Machine.reaches_nil.mp hs]
      exact List.forall_mem_nil _
  refine ⟨s, hr, registry_bounded (by norm_num) (hfirst.snoc fun t ht => ?_) hr⟩
  rw [ht.unique hr₀, OnTime, hex, expiry]
  norm_num

/-! ## Pacing -/

/-- The session whose push loop is at its top. -/
def Event.loads : Event → Option Nat
  | .start k _ | .wake k _ => some k
  | _ => none

def loadTimes (k : Nat) (es : List (ℚ × Event)) : List ℚ :=
  es.filterMap fun e => if e.2.loads = some k then some e.1 else none

theorem loadTimes_snoc (k : Nat) (es : List (ℚ × Event)) (e : ℚ × Event) :
    loadTimes k (es ++ [e]) =
      if e.2.loads = some k then loadTimes k es ++ [e.1] else loadTimes k es := by
  rw [loadTimes, List.filterMap_append]
  split <;> simp [loadTimes, *]

/-- A push loop keeps its beat: its loads are `p` apart, and what it waits for keeps the next one
away from them. -/
structure OnBeat (p : ℚ) (phase : Option Phase) (c : PushClock) (ts : List ℚ) : Prop where
  spaced : Spaced p ts
  fresh : (∀ ph, phase = some ph → ph.isWaiting = true) → ts = []
  sending : phase = some (.pushing .sending) → SpacedBy p ts (c.started + p)
  draining : phase = some (.pushing .draining) → SpacedBy p ts c.wakeAt

namespace OnBeat

variable {p t : ℚ} {phase : Option Phase} {c : PushClock} {ts : List ℚ}

theorem none : OnBeat p phase c [] := ⟨.nil, fun _ => rfl, fun _ => .none, fun _ => .none⟩

theorem idle (h : Spaced p ts) {ph : Phase} (hw : ph.isWaiting = false)
    (hc : ph.isCounted = false) : OnBeat p (some ph) c ts where
  spaced := h
  fresh hf := by
    rw [hf ph rfl] at hw
    cases hw
  sending he := by
    cases he
    cases hc
  draining he := by
    cases he
    cases hc

theorem load (hp : 0 ≤ p) {next : ℚ} (h : SpacedBy p ts next) (ht : next ≤ t)
    (hc : c.started = t) : OnBeat p (some (.pushing .sending)) c (ts ++ [t]) := by
  have hs := h.start hp ht
  refine ⟨hs.spaced, fun hf => ?_, fun _ => hc ▸ hs, nofun⟩
  cases hf _ rfl

/-- **The sleep makes up for the send**: it ends no sooner than an interval after the load. -/
theorem sent (h : SpacedBy p ts (c.started + p)) {c' : PushClock}
    (hc : c'.wakeAt = t + max (p - (t - c.started)) 0) :
    OnBeat p (some (.pushing .draining)) c' ts := by
  have hle : c.started + p ≤ c'.wakeAt := by
    have := le_max_left (p - (t - c.started)) 0
    rw [hc]
    linarith
  refine ⟨h.spaced, fun hf => ?_, nofun, fun _ => h.wait hle⟩
  cases hf _ rfl

end OnBeat

def Event.session : Event → Option Nat
  | .upgraded k | .upgradeFailed k | .start k _ | .sent k _ | .wake k _ | .recv k _ | .closed k =>
    some k
  | .createWorker _ _ | .expire _ | .connect _ => none

def Poll.phase : Poll → Phase
  | .suspended p => .pushing p
  | .returned _ => .closing

theorem WsServer.poll_sessions (s : WsServer) (k : Nat) (r : Poll) :
    (s.poll k r).sessions = s.sessions.set k r.phase := by
  cases r <;> rfl

/-- An event of another session leaves a session where it is, or starts it. -/
theorem sessions_other {s s' : WsServer} {e : Event} (h : s.step e = some s') {k : Nat}
    (hk : e.session ≠ some k) : s'.sessions[k]? = s.sessions[k]? ∨
      s.sessions[k]? = none ∧ s'.sessions[k]? = some .answered := by
  have hset : ∀ {j : Nat} {q : Phase}, j ≠ k → (s.sessions.set j q)[k]? = s.sessions[k]? :=
    fun hj => List.getElem?_set_ne hj
  cases e with
  | createWorker id host => cases h; exact .inl rfl
  | expire id =>
    obtain ⟨w, -, rfl⟩ := Option.map_eq_some_iff.mp h
    exact .inl rfl
  | connect q =>
    cases h
    have ha := WsServer.connect_answers s q
    generalize s.connect q = r at ha ⊢
    cases ha with
    | missing _ | invalid _ _ | full _ _ _ => exact .inl rfl
    | upgrade _ _ _ =>
      show (s.sessions ++ [.answered])[k]? = s.sessions[k]? ∨ _
      rcases Nat.lt_trichotomy k s.sessions.length with hlt | rfl | hgt
      · exact .inl (List.getElem?_append_left hlt)
      · exact .inr ⟨by simp, by simp⟩
      · refine .inl ?_
        rw [List.getElem?_eq_none hgt.le, List.getElem?_eq_none]
        rw [List.length_append, List.length_singleton]
        omega
  | upgraded j | upgradeFailed j | closed j =>
    simp only [WsServer.step, WsServer.at?_eq_some] at h
    obtain ⟨-, rfl⟩ := h
    exact .inl (hset fun he => hk (congrArg some he))
  | start j buf | sent j r | wake j buf | recv j m =>
    simp only [WsServer.step, WsServer.at?_eq_some] at h
    obtain ⟨-, rfl⟩ := h
    rw [WsServer.poll_sessions]
    exact .inl (hset fun he => hk (congrArg some he))

def Paced (p : ℚ) (es : List (ℚ × Event)) (s : Timed WsServer ServerTimes) : Prop :=
  ∀ k, OnBeat p s.state.sessions[k]? (s.mem.pushes k) (loadTimes k es)

theorem paced_other {es : List (ℚ × Event)} {e : ℚ × Event} {s s' : Timed WsServer ServerTimes}
    (hs : (timedServer cap interval).step s e = some s') {k : Nat} (hk : e.2.session ≠ some k)
    (hp : OnBeat interval.secs s.state.sessions[k]? (s.mem.pushes k) (loadTimes k es)) :
    OnBeat interval.secs s'.state.sessions[k]? (s'.mem.pushes k) (loadTimes k (es ++ [e])) := by
  have ht := Machine.timedStep hs
  have hpush : s'.mem.pushes k = s.mem.pushes k := by
    rw [ht.mem]
    obtain ⟨t, e⟩ := e
    cases e with
    | createWorker id host | expire id | connect q | upgraded j | upgradeFailed j | recv j m
    | closed j => rfl
    | start j buf | wake j buf =>
      exact ServerTimes.setPush_other _ _ fun h => hk (congrArg some h.symm)
    | sent j r =>
      cases r with
      | ok u => exact ServerTimes.setPush_other _ _ fun h => hk (congrArg some h.symm)
      | error m => rfl
  have hload : loadTimes k (es ++ [e]) = loadTimes k es := by
    rw [loadTimes_snoc, if_neg]
    have hloads : ∀ e : Event, e.loads = some k → e.session = some k := by
      intro e h
      cases e <;> cases h <;> rfl
    exact fun h => hk (hloads _ h)
  rw [hpush, hload]
  rcases sessions_other ht.step hk with h | ⟨h, h'⟩
  · rw [h]
    exact hp
  · rw [h', hp.fresh (by simp [h])]
    exact .none

theorem getElem?_set_own {l : List Phase} {k : Nat} {p q : Phase} (h : l[k]? = some p) :
    (l.set k q)[k]? = some q := by
  rw [List.getElem?_set_self (List.getElem?_eq_some_iff.mp h).1]

theorem paced_own {es : List (ℚ × Event)} {e : ℚ × Event} {s s' : Timed WsServer ServerTimes}
    (hs : (timedServer cap interval).step s e = some s') {k : Nat} (hk : e.2.session = some k)
    (hp : OnBeat interval.secs s.state.sessions[k]? (s.mem.pushes k) (loadTimes k es)) :
    OnBeat interval.secs s'.state.sessions[k]? (s'.mem.pushes k) (loadTimes k (es ++ [e])) := by
  have ht := Machine.timedStep hs
  have hready := ht.ready
  have hmem := ht.mem
  have hpos := interval.nonneg
  obtain ⟨t, e⟩ := e
  have hst : s.state.step e = some s'.state := ht.step
  have hon : e.loads = some k → loadTimes k (es ++ [(t, e)]) = loadTimes k es ++ [t] := fun h => by
    rw [loadTimes_snoc, if_pos h]
  have hoff : e.loads ≠ some k → loadTimes k (es ++ [(t, e)]) = loadTimes k es := fun h => by
    rw [loadTimes_snoc, if_neg h]
  cases e with
  | createWorker id host | expire id | connect q => cases hk
  | upgraded j =>
    cases hk
    simp only [WsServer.step, WsServer.at?_eq_some] at hst
    obtain ⟨hph, hst⟩ := hst
    rw [hoff (fun h => by cases h), hp.fresh (by simp [hph, Phase.isWaiting])]
    exact .none
  | upgradeFailed j | closed j =>
    cases hk
    simp only [WsServer.step, WsServer.at?_eq_some] at hst
    obtain ⟨hph, hst⟩ := hst
    rw [hoff (fun h => by cases h), ← hst,
      show (s.state.setPhase k .ended).sessions[k]? = some .ended from getElem?_set_own hph]
    exact .idle hp.spaced rfl rfl
  | start j buf =>
    cases hk
    simp only [WsServer.step, WsServer.at?_eq_some] at hst
    obtain ⟨hph, hst⟩ := hst
    have hnew := hp.fresh (by simp [hph, Phase.isWaiting])
    have hload := OnBeat.load (c := s'.mem.pushes k) hpos (.none : SpacedBy _ _ t) le_rfl
      (by rw [hmem]; exact congrArg PushClock.started (ServerTimes.setPush_self ..))
    rw [← hst, WsServer.poll_sessions, getElem?_set_own hph, hon rfl, hnew]
    cases buf with
    | ok b => exact hload
    | error m => exact .idle hload.spaced rfl rfl
  | sent j r =>
    cases hk
    simp only [WsServer.step, WsServer.at?_eq_some] at hst
    obtain ⟨hph, hst⟩ := hst
    rw [← hst, WsServer.poll_sessions, getElem?_set_own hph, hoff (fun h => by cases h)]
    cases r with
    | ok u =>
      refine .sent (c := s.mem.pushes k) (t := t) (hp.sending hph) ?_
      rw [hmem]
      exact congrArg PushClock.wakeAt (ServerTimes.setPush_self ..)
    | error m => exact .idle hp.spaced rfl rfl
  | wake j buf =>
    cases hk
    simp only [WsServer.step, WsServer.at?_eq_some] at hst
    obtain ⟨hph, hst⟩ := hst
    have hload := OnBeat.load (c := s'.mem.pushes k) hpos (hp.draining hph)
      (of_decide_eq_true hready)
      (by rw [hmem]; exact congrArg PushClock.started (ServerTimes.setPush_self ..))
    rw [← hst, WsServer.poll_sessions, getElem?_set_own hph, hon rfl]
    cases buf with
    | ok b => exact hload
    | error m => exact .idle hload.spaced rfl rfl
  | recv j m =>
    cases hk
    simp only [WsServer.step, WsServer.at?_eq_some] at hst
    obtain ⟨hph, hst⟩ := hst
    rw [← hst, WsServer.poll_sessions, getElem?_set_own hph, hoff (fun h => by cases h), hmem]
    cases m with
    | other => exact hph ▸ hp
    | close | eof | error m => exact .idle hp.spaced rfl rfl

/-- **Pacing.** A server that pushes at the interval of a sampler loads a session's frames at least
that interval apart, and so no more than ten a second and one. -/
theorem push_paced {secs : ℚ} (hi : Sampler.intervalOf secs = some interval)
    {es : List (ℚ × Event)} {s : Timed WsServer ServerTimes}
    (hr : (timedServer cap interval).Reaches es s) (k : Nat) :
    Spaced interval.secs (loadTimes k es) ∧ Spaced secs (loadTimes k es) ∧
      ∀ a b, a ≤ b →
        (((loadTimes k es).filter fun t => a ≤ t ∧ t ≤ b).length : ℚ) ≤ 10 * (b - a) + 1 := by
  have hmax : max secs (1 / 10) = interval.secs := F64.fin.inj (fromSecsF64_secs hi)
  have hpaced : Paced interval.secs es s := by
    refine hr.hist (P := Paced interval.secs) (fun _ => .none) ?_
    intro es e s s' _ hp hs k
    by_cases hk : e.2.session = some k
    · exact paced_own hs hk (hp k)
    · exact paced_other hs hk (hp k)
  have hsp := (hpaced k).spaced
  refine ⟨hsp, hsp.mono (hmax ▸ le_max_left _ _), fun a b hab => ?_⟩
  have htenth : Spaced (1 / 10) (loadTimes k es) := hsp.mono (hmax ▸ le_max_right _ _)
  calc (((loadTimes k es).filter fun t => a ≤ t ∧ t ≤ b).length : ℚ)
      ≤ (b - a) / (1 / 10) + 1 := htenth.length_window_le (by norm_num) hab
    _ = 10 * (b - a) + 1 := by ring

/-- A client that sends while it is served, and a wake-up that is late. -/
def threeFrames : List (ℚ × Event) :=
  [(0, .createWorker "a" none), (1, .connect (some "a")), (1, .upgraded 0), (1, .start 0 (.ok "")),
    (6 / 5, .sent 0 (.ok ())), (3 / 2, .recv 0 .other), (2, .wake 0 (.ok "")),
    (21 / 10, .sent 0 (.ok ())), (16 / 5, .wake 0 (.ok ""))]

theorem push_paced_threeFrames : ∃ interval s, Sampler.intervalOf 1 = some interval ∧
    (timedServer 10 interval).Reaches threeFrames s ∧
      loadTimes 0 threeFrames = [1, 2, 16 / 5] ∧ Spaced 1 (loadTimes 0 threeFrames) := by
  have hi : Sampler.intervalOf 1 = some second := by
    with_unfolding_all rfl
  have hrun : ∃ s, (timedServer 10 second).Reaches threeFrames s := by
    with_unfolding_all exact ⟨_, rfl⟩
  obtain ⟨s, hr⟩ := hrun
  exact ⟨_, s, hi, hr, rfl, (push_paced hi hr 0).1⟩

end Vigil.Server

import Vigil.Hub.Session
import Vigil.Lib.Backoff
import Vigil.Lib.Register

/-!
# The hub task

`hub c` is `supervise`: connect, run the session, wait, connect again. Its
events are the publications of the sampler, the outcome of each connection
attempt, the events of the session, the end of the wait, and `HubClient::stop`.

A `Task` carries, next to the state of the task, what has happened so far: the
snapshots published before the one in the slot, the connections that are over,
and the log of session ends and waits.
-/

namespace Vigil.Hub

open Vigil.Lib

/-- How a session ended, as seen from outside. -/
inductive SessionEnd where
  | refused
  /-- an error, or an unexpected frame, before a welcome -/
  | beforeWelcome
  /-- a welcome, and later a clean close -/
  | cleanClose
  /-- a welcome, and later an error -/
  | broken
  deriving DecidableEq

def SessionEnd.reachedWelcome : SessionEnd → Bool
  | cleanClose | broken => true
  | refused | beforeWelcome => false

def backoffInitial : Duration := ⟨1, by norm_num, by norm_num⟩

inductive Ctl where
  | connecting
  | connected (k : Conn)
  | waiting
  | stopped
  | dead

structure Task where
  /-- the snapshots published before `slot`, oldest first -/
  earlier : List Snapshot
  /-- the `ArcSwap` the sampler publishes to -/
  slot : Snapshot
  backoff : Duration
  ctl : Ctl
  /-- the connections that are over, oldest first -/
  ended : List Conn
  log : List (RetryEntry SessionEnd)

/-- The events of a session; the round a step begins is loaded at its `ts`. -/
inductive Wire where
  | sent
  | sendFailed (e : String) (wrote : Bool)
  | recv (m : Incoming) (ts : Int)
  | slept (ts : Int)
  | stopped

def Wire.at (round : Int → Round) : Wire → ConnEvent
  | sent => .sent
  | sendFailed e wrote => .sendFailed e wrote
  | recv m ts => .recv m (round ts)
  | slept ts => .slept (round ts)
  | stopped => .stopped

inductive HubEvent where
  | publish (s : Snapshot)
  | connectFailed (e : String)
  | connected
  | wire (e : Wire)
  | backoffOver
  | stop

variable (c : Client)

def Conn.welcomed (k : Conn) : Bool := k.received.head?.any c.isWelcome

def SessionEnd.of (k : Conn) (res : Except String Unit) : SessionEnd :=
  if k.welcomed c then
    match res with
    | .ok _ => cleanClose
    | .error _ => broken
  else beforeWelcome

namespace Task

variable (h : Task)

def published : List Snapshot := h.earlier ++ [h.slot]

/-- What the top of `push_loop` loads. -/
def round (ts : Int) : Round := ⟨h.earlier.length, h.slot, ts⟩

/-- The connections so far, oldest first. -/
def conns : List Conn :=
  h.ended ++ match h.ctl with
    | .connected k => [k]
    | _ => []

/-- `supervise` on the result of a session. -/
def sessionOver (e : SessionEnd) (res : Except String Unit) : Task :=
  let backoff := match res with
    | .ok _ => backoffInitial
    | .error _ => h.backoff
  { h with
    backoff := backoff
    ctl := .waiting
    log := h.log ++ [.ended e] ++ [.waited backoff.secs] }

def settle (k : Conn) : Task :=
  match k.state with
  | .done res => { h with ended := h.ended ++ [k] }.sessionOver (.of c k res) res
  | .panicked => { h with ended := h.ended ++ [k], ctl := .dead }
  | _ => { h with ctl := .connected k }

/-- The wait is over: the next one is `1.7` times as long, up to 30 s. -/
def grow : Task :=
  match fromSecsF64 (.fin (min (h.backoff.secs * (17 / 10)) 30)) with
  | some d => { h with backoff := d, ctl := .connecting }
  | none => { h with ctl := .dead }

def step : HubEvent → Option Task
  | .publish s => some { h with earlier := h.earlier ++ [h.slot], slot := s }
  | .connectFailed e =>
    match h.ctl with
    | .connecting => some (h.sessionOver .refused (.error e))
    | _ => none
  | .connected =>
    match h.ctl with
    | .connecting => some (h.settle c (.begin c))
    | _ => none
  | .wire e =>
    match h.ctl with
    | .connected k => (k.step c (e.at h.round)).map (h.settle c)
    | _ => none
  | .backoffOver =>
    match h.ctl with
    | .waiting => some h.grow
    | _ => none
  | .stop =>
    match h.ctl with
    | .connecting | .waiting => some { h with ctl := .stopped }
    | .connected k => some { h with ended := h.ended ++ [k], ctl := .stopped }
    | .stopped | .dead => none

end Task

/-- The hub task from its start, with the snapshot the sampler has seeded. -/
def hub (seed : Snapshot) : Machine Task HubEvent where
  init := ⟨[], seed, backoffInitial, .connecting, [], []⟩
  step h := h.step c

/-! ## What a step does -/

variable {c}

namespace Task

variable {h h' : Task}

@[simp] theorem earlier_settle (k : Conn) : (h.settle c k).earlier = h.earlier := by
  unfold settle; split <;> rfl

@[simp] theorem slot_settle (k : Conn) : (h.settle c k).slot = h.slot := by
  unfold settle; split <;> rfl

@[simp] theorem earlier_grow : h.grow.earlier = h.earlier := by unfold grow; split <;> rfl

@[simp] theorem slot_grow : h.grow.slot = h.slot := by unfold grow; split <;> rfl

@[simp] theorem ended_grow : h.grow.ended = h.ended := by unfold grow; split <;> rfl

/-- Whatever becomes of a session, its connection is the last one. -/
@[simp] theorem conns_settle (k : Conn) : (h.settle c k).conns = h.ended ++ [k] := by
  unfold settle
  split <;> simp [conns, sessionOver]

theorem conns_connected {k : Conn} (hc : h.ctl = .connected k) : h.conns = h.ended ++ [k] := by
  simp [conns, hc]

theorem mem_conns_connected {k : Conn} (hc : h.ctl = .connected k) : k ∈ h.conns :=
  conns_connected hc ▸ List.mem_append_right _ (List.mem_singleton_self k)

theorem conns_of_not_connected (hc : ∀ k, h.ctl ≠ .connected k) : h.conns = h.ended := by
  unfold conns
  split
  · next k hk => exact absurd hk (hc k)
  · exact List.append_nil _

theorem conns_sessionOver (e : SessionEnd) (res : Except String Unit) :
    (h.sessionOver e res).conns = h.ended := by
  simp [conns, sessionOver]

theorem conns_grow : h.grow.conns = h.ended := by
  rw [conns_of_not_connected, ended_grow]
  unfold grow
  split <;> exact fun k hk => by cases hk

/-- **The moves of the hub task.** -/
inductive Moves (c : Client) (h : Task) : HubEvent → Task → Prop where
  | publish (s : Snapshot) :
      Moves c h (.publish s) { h with earlier := h.earlier ++ [h.slot], slot := s }
  | refused (e : String) : h.ctl = .connecting →
      Moves c h (.connectFailed e) (h.sessionOver .refused (.error e))
  | connected : h.ctl = .connecting → Moves c h .connected (h.settle c (.begin c))
  | wire (k k' : Conn) (e : Wire) : h.ctl = .connected k → k.step c (e.at h.round) = some k' →
      Moves c h (.wire e) (h.settle c k')
  | backoffOver : h.ctl = .waiting → Moves c h .backoffOver h.grow
  | stop : h.ctl = .connecting ∨ h.ctl = .waiting → Moves c h .stop { h with ctl := .stopped }
  /-- a connection is open when the task is stopped -/
  | cut (k : Conn) : h.ctl = .connected k →
      Moves c h .stop { h with ended := h.ended ++ [k], ctl := .stopped }

theorem step_moves {e : HubEvent} (hs : h.step c e = some h') : Moves c h e h' := by
  unfold step at hs
  cases e with
  | publish s => cases hs; exact .publish s
  | connectFailed e =>
    dsimp only at hs
    split at hs
    · next hc => cases hs; exact .refused e hc
    · cases hs
  | connected =>
    dsimp only at hs
    split at hs
    · next hc => cases hs; exact .connected hc
    · cases hs
  | wire e =>
    dsimp only at hs
    split at hs
    · next k hc =>
      obtain ⟨k', hk, rfl⟩ := Option.map_eq_some_iff.mp hs
      exact .wire k k' e hc hk
    · cases hs
  | backoffOver =>
    dsimp only at hs
    split at hs
    · next hc => cases hs; exact .backoffOver hc
    · cases hs
  | stop =>
    dsimp only at hs
    split at hs
    · next hc => cases hs; exact .stop (.inl hc)
    · next hc => cases hs; exact .stop (.inr hc)
    · next k hc => cases hs; exact .cut k hc
    · cases hs
    · cases hs

/-- What a step does to the connections and the publications. -/
inductive ConnMoves (c : Client) (h h' : Task) : Prop where
  | publish (s : Snapshot) : h'.conns = h.conns → h'.published = h.published ++ [s] →
      ConnMoves c h h'
  | other : h'.conns = h.conns → h'.published = h.published → ConnMoves c h h'
  | opened : h'.conns = h.conns ++ [.begin c] → h'.published = h.published → ConnMoves c h h'
  | moved (k k' : Conn) (e : Wire) : h.conns = h.ended ++ [k] → k.step c (e.at h.round) = some k' →
      h'.conns = h.ended ++ [k'] → h'.published = h.published → ConnMoves c h h'

theorem connMoves_of_step {e : HubEvent} (hs : h.step c e = some h') : ConnMoves c h h' := by
  have hclosed : (∀ k, h.ctl ≠ .connected k) → ∀ {t : Task}, t.conns = h.ended →
      t.conns = h.conns := fun hn _ ht => ht.trans (conns_of_not_connected hn).symm
  cases step_moves hs with
  | publish s => exact .publish s rfl rfl
  | refused e hc => exact .other (hclosed (by simp [hc]) (conns_sessionOver _ _)) rfl
  | connected hc =>
    refine .opened ?_ (by simp [published])
    rw [conns_settle, conns_of_not_connected (h := h) (by simp [hc])]
  | wire k k' e hc hk =>
    exact .moved k k' e (conns_connected hc) hk (conns_settle k') (by simp [published])
  | backoffOver hc => exact .other (hclosed (by simp [hc]) conns_grow) (by simp [published])
  | stop hc =>
    refine .other (hclosed (fun k hk => ?_) (conns_of_not_connected (by simp))) rfl
    rcases hc with hc | hc <;> rw [hc] at hk <;> cases hk
  | cut k hc => exact .other (by simp [conns, hc]) rfl

end Task

/-- A step begins at most one round, the one its event loads. -/
theorem Conn.rounds_step {k k' : Conn} {e : Wire} {round : Int → Round}
    (h : k.step c (e.at round) = some k') :
    k'.rounds = k.rounds ∨ ∃ ts, k'.rounds = k.rounds ++ [round ts] := by
  generalize he : e.at round = e' at h
  cases Conn.step_moves h with
  | answered m r _ =>
    obtain ⟨ts, rfl⟩ : ∃ ts, r = round ts := by
      cases e <;> cases he
      exact ⟨_, rfl⟩
    unfold welcome
    split
    · exact .inr ⟨ts, rfl⟩
    · exact .inl rfl
    · exact .inl rfl
  | slept d r _ =>
    obtain ⟨ts, rfl⟩ : ∃ ts, r = round ts := by
      cases e <;> cases he
      exact ⟨_, rfl⟩
    exact .inr ⟨ts, rfl⟩
  | helloSent | helloFailed | sent | failed | drained | stopped => exact .inl rfl

namespace Task

variable {h h' : Task}

/-! ## Publications and rounds -/

def rounds (h : Task) : List Round := h.conns.flatMap Conn.rounds

/-- The rounds use publications that exist, and never go back to an older one. -/
def RoundsInOrder (h : Task) : Prop :=
  InOrder Round.version (fun r s => r.snap = s) h.published h.rounds

theorem roundsInOrder_step {e : HubEvent} (hi : h.RoundsInOrder) (hs : h.step c e = some h') :
    h'.RoundsInOrder := by
  unfold RoundsInOrder at *
  cases connMoves_of_step hs with
  | publish s hc hp => rw [rounds, hc, hp]; exact hi.write [s]
  | other hc hp => rw [rounds, hc, hp]; exact hi
  | opened hc hp => simpa [rounds, hc, hp, Conn.begin] using hi
  | moved k k' e hc hk hc' hp =>
    have hr : h.rounds = h.ended.flatMap Conn.rounds ++ k.rounds := by simp [rounds, hc]
    rcases Conn.rounds_step hk with hkr | ⟨ts, hkr⟩
    · have hr' : h'.rounds = h.rounds := by simp [rounds, hc, hc', hkr]
      rwa [hr', hp]
    · have hr' : h'.rounds = h.rounds ++ [h.round ts] := by
        rw [hr]; simp [rounds, hc', hkr]
      rw [hr', hp]
      exact hi.read (by simp [published, round]) (by simp [published, round]) rfl

/-! ## Connections -/

def ConnsInv (c : Client) (h : Task) : Prop := ∀ k ∈ h.conns, Conn.Inv c k

theorem connsInv_step {e : HubEvent} (hi : h.ConnsInv c) (hs : h.step c e = some h') :
    h'.ConnsInv c := by
  unfold ConnsInv at *
  cases connMoves_of_step hs with
  | publish s hc _ | other hc _ => rwa [hc]
  | opened hc _ =>
    intro k hk
    rcases List.mem_append.mp (hc ▸ hk) with hk | hk
    · exact hi k hk
    · rw [List.mem_singleton.mp hk]; exact Conn.inv_begin
  | moved k k' e hc hk hc' _ =>
    intro x hx
    rcases List.mem_append.mp (hc' ▸ hx) with hx | hx
    · exact hi x (hc ▸ List.mem_append_left _ hx)
    · rw [List.mem_singleton.mp hx]
      exact Conn.inv_step (hi k (hc ▸ List.mem_append_right _ (List.mem_singleton_self k))) hk

def OpenNotOver (h : Task) : Prop := ∀ k, h.ctl = .connected k → ¬ k.state.IsOver

theorem openNotOver_settle (k : Conn) : (h.settle c k).OpenNotOver := by
  unfold settle
  split
  · exact fun k' hk => by cases hk
  · exact fun k' hk => by cases hk
  · next hd hp =>
    intro k' hk
    cases hk
    intro ho
    cases hs : k.state with
    | done res => exact hd res hs
    | panicked => exact hp hs
    | hello | awaitingWelcome | sending f stage d r | draining d => rw [hs] at ho; exact ho

theorem openNotOver_step {e : HubEvent} (hi : h.OpenNotOver) (hs : h.step c e = some h') :
    h'.OpenNotOver := by
  cases step_moves hs with
  | publish s => exact hi
  | connected _ | wire _ k' _ _ _ => exact openNotOver_settle _
  | backoffOver _ =>
    unfold grow
    split <;> exact fun k hk => by cases hk
  | refused | stop | cut => exact fun k hk => by cases hk

theorem roundsInOrder_of_reaches {seed : Snapshot} {es : List HubEvent}
    (hr : (hub c seed).Reaches es h) : h.RoundsInOrder :=
  hr.inv (P := RoundsInOrder) (InOrder.nil : RoundsInOrder (hub c seed).init)
    fun _ _ _ hi hs => roundsInOrder_step hi hs

theorem connsInv_of_reaches {seed : Snapshot} {es : List HubEvent}
    (hr : (hub c seed).Reaches es h) : h.ConnsInv c :=
  hr.inv (P := ConnsInv c) (by simp [hub, ConnsInv, conns]) fun _ _ _ hi hs => connsInv_step hi hs

theorem openNotOver_of_reaches {seed : Snapshot} {es : List HubEvent}
    (hr : (hub c seed).Reaches es h) : h.OpenNotOver :=
  hr.inv (P := OpenNotOver) (fun k hk => by cases hk) fun _ _ _ hi hs => openNotOver_step hi hs

/-- Connections that are over stay as they are. -/
theorem ended_step {e : HubEvent} (hs : h.step c e = some h') : h.ended <+: h'.ended := by
  have hset : ∀ k, h.ended <+: (h.settle c k).ended := by
    intro k
    unfold settle
    split
    · exact List.prefix_append _ _
    · exact List.prefix_append _ _
    · exact List.prefix_rfl
  cases step_moves hs with
  | connected _ | wire _ _ _ _ _ => exact hset _
  | backoffOver _ => rw [ended_grow]
  | publish | refused | stop => exact List.prefix_rfl
  | cut k _ => exact List.prefix_append _ _

theorem ended_run {es : List HubEvent} {seed : Snapshot} (hr : (hub c seed).run h es = some h') :
    h.ended <+: h'.ended :=
  Machine.run_preserves (M := hub c seed) (P := fun t => h.ended <+: t.ended)
    (fun _ _ _ hp hs => hp.trans (ended_step hs)) hr List.prefix_rfl

end Task

/-- A close, the end of the stream or an error has been observed. -/
def Conn.Observed (k : Conn) : Prop := k.sendFailed = true ∨ ∃ m ∈ k.received, m.Ends

def Frame.IsHello : Frame → Prop
  | .hello _ => True
  | _ => False

theorem Round.not_isHello {r : Round} {f : Frame} (hf : f ∈ r.frames) : ¬ f.IsHello := by
  simp only [frames, List.mem_cons, List.mem_append] at hf
  rcases hf with rfl | hf | hf
  · exact id
  · split at hf
    · simp at hf
    · rw [List.mem_singleton.mp hf]; exact id
  · split at hf
    · simp at hf
    · rw [List.mem_singleton.mp hf]; exact id

/-- **The wire protocol**, over all connections of a run so far. -/
structure Task.Coherent (c : Client) (h : Task) : Prop where
  /-- hello, then the frames of one round after the other, the last one possibly cut -/
  frames : ∀ k ∈ h.conns, k.frames <+: .hello c.hello :: k.rounds.flatMap Round.frames
  hello_once : ∀ k ∈ h.conns, ∀ f ∈ k.frames.tail, ¬ f.IsHello
  welcomed : ∀ k ∈ h.conns, 1 < k.frames.length → k.Welcomed c
  /-- each round uses one publication, and no round an older one than a round before it -/
  rounds : InOrder Round.version (fun r s => r.snap = s) h.published h.rounds

theorem Conn.not_isHello_tail {k : Conn}
    (hp : k.frames <+: .hello c.hello :: k.rounds.flatMap Round.frames) {f : Frame}
    (hf : f ∈ k.frames.tail) : ¬ f.IsHello := by
  have ht : k.frames.tail <+: k.rounds.flatMap Round.frames := by
    simpa using hp.drop 1
  obtain ⟨r, -, hr⟩ := List.mem_flatMap.mp (ht.subset hf)
  exact Round.not_isHello hr

/-- **Order and coherence on the wire.** In every run of the hub task the frames written keep to the
protocol, and a connection on which a close, the end of the stream or an error has been observed
never changes again. -/
theorem wire_coherent {seed : Snapshot} {es : List HubEvent} {h : Task}
    (hr : (hub c seed).Reaches es h) :
    h.Coherent c ∧
      ∀ fs h', (hub c seed).run h fs = some h' →
        ∀ (i : Nat) (k : Conn), h.conns[i]? = some k → k.Observed → h'.conns[i]? = some k := by
  have hconns : h.ConnsInv c := Task.connsInv_of_reaches hr
  have hopen : h.OpenNotOver := Task.openNotOver_of_reaches hr
  refine ⟨⟨fun k hk => (hconns k hk).frames, fun k hk f => ?_, fun k hk => (hconns k hk).welcomed,
    Task.roundsInOrder_of_reaches hr⟩, ?_⟩
  · exact Conn.not_isHello_tail (hconns k hk).frames
  · intro fs h' hrun i k hk ho
    have hover : k.state.IsOver := Conn.over_of_ends (hconns k (List.mem_of_getElem? hk)) ho
    -- the open connection is the last one, so `k` is among those that are over
    have hi : h.ended[i]? = some k := by
      cases hc : h.ctl with
      | connected k' =>
        rw [Task.conns_connected hc] at hk
        by_cases hlt : i < h.ended.length
        · rwa [List.getElem?_append_left hlt] at hk
        · rw [List.getElem?_append_right (not_lt.mp hlt)] at hk
          obtain rfl : k = k' := by simpa using List.mem_of_getElem? hk
          exact absurd hover (hopen k hc)
      | connecting | waiting | stopped | dead =>
        rwa [Task.conns_of_not_connected (by simp [hc])] at hk
    obtain ⟨t, ht⟩ := Task.ended_run hrun
    have hlt := (List.getElem?_eq_some_iff.mp hi).1
    rw [Task.conns, ← ht, List.append_assoc, List.getElem?_append_left hlt]
    exact hi

/-- Two rounds, with a publication between them that brings a process in. -/
def twoRounds : List HubEvent :=
  [.connected, .wire .sent, .wire (.recv (some (.ok (.text shortWelcome))) 100), .wire .sent,
    .publish { Snapshot.default with processes := [⟨1, "init", "root", .fin 4⟩] },
    .wire (.recv (some (.ok .ping)) 102), .wire (.slept 105), .wire .sent, .wire .sent,
    .wire (.recv (some (.ok .close)) 107)]

theorem wire_coherent_twoRounds :
    ∃ h, (hub lab .default).Reaches twoRounds h ∧
      h.conns.map (fun k => k.frames.length) = [4] ∧ h.Coherent lab := by
  have hrun : ∃ h, (hub lab .default).Reaches twoRounds h ∧
      h.conns.map (fun k => k.frames.length) = [4] := by
    with_unfolding_all exact ⟨_, rfl, rfl⟩
  obtain ⟨h, hr, hl⟩ := hrun
  exact ⟨h, hr, hl, (wire_coherent hr).1⟩

/-! ## The backoff law -/

/-- 1 s, times 1.7 from one wait to the next, up to 30 s. -/
def policy : Backoff := ⟨1, 17 / 10, 30, by norm_num, by norm_num, by norm_num⟩

/-- The ends on which `supervise` resets: those it sees as `Ok`. -/
def SessionEnd.isOk (e : SessionEnd) : Bool := e = cleanClose

theorem SessionEnd.reachedWelcome_of_isOk (e : SessionEnd) (h : e.isOk = true) :
    e.reachedWelcome = true := by
  cases e <;> simp_all [isOk, reachedWelcome]

theorem Conn.welcomed_of_welcomed {k : Conn} (h : k.Welcomed c) : k.welcomed c = true := by
  obtain ⟨m, hm, hw⟩ := h
  simp [welcomed, hm, Client.isWelcome_of_isWelcome hw]

theorem SessionEnd.isOk_of {k : Conn} {res : Except String Unit} (hi : Conn.Inv c k)
    (hs : k.state = .done res) : (SessionEnd.of c k res).isOk = res.isOk := by
  cases res with
  | error e =>
    unfold SessionEnd.of
    split <;> rfl
  | ok u =>
    have hw : k.welcomed c = true := by
      cases hi with
      | hello | awaiting => cases hs
      | pushing st m ms rs r w _ _ _ ho =>
        obtain rfl : st = .done (.ok u) := hs
        exact absurd trivial ho
      | ended _ _ _ _ hok => exact Conn.welcomed_of_welcomed (hok hs)
    simp [SessionEnd.of, hw, SessionEnd.isOk, Except.isOk, Except.toBool]

namespace Task

variable {h h' : Task}

/-- Where the backoff stands: as a supervisor that resets on `Ok` leaves it. -/
def BackoffInv (h : Task) : Prop :=
  match h.ctl with
  | .connecting | .connected _ => Produced policy SessionEnd.isOk h.backoff.secs h.log
  | .waiting => Produced policy SessionEnd.isOk (policy.next h.backoff.secs) h.log
  | .stopped | .dead => ∃ cur, Produced policy SessionEnd.isOk cur h.log

theorem backoffInv_sessionOver {e : SessionEnd} {res : Except String Unit} (he : e.isOk = res.isOk)
    (hp : Produced policy SessionEnd.isOk h.backoff.secs h.log) :
    (h.sessionOver e res).BackoffInv := by
  have := hp.cycle e
  unfold Backoff.wait at this
  rw [he] at this
  cases res <;> exact this

theorem backoffInv_settle {k : Conn} (hi : Conn.Inv c k)
    (hp : Produced policy SessionEnd.isOk h.backoff.secs h.log) : (h.settle c k).BackoffInv := by
  unfold settle
  split
  · next res hs => exact backoffInv_sessionOver (SessionEnd.isOk_of hi hs) hp
  · exact ⟨_, hp⟩
  · exact hp

theorem backoffInv_grow (hp : Produced policy SessionEnd.isOk (policy.next h.backoff.secs) h.log) :
    h.grow.BackoffInv ∧ h.grow.ctl = .connecting := by
  have hfit : (fromSecsF64 (.fin (policy.next h.backoff.secs))).isSome := by
    rw [fromSecsF64_fin_isSome, hp.cur_eq]
    exact ⟨policy.delay_nonneg _, (policy.delay_le_cap _).trans_lt (by norm_num [policy])⟩
  obtain ⟨d, hd⟩ := Option.isSome_iff_exists.mp hfit
  have hg : h.grow = { h with backoff := d, ctl := .connecting } := by
    unfold grow
    rw [show min (h.backoff.secs * (17 / 10)) 30 = policy.next h.backoff.secs from rfl, hd]
  have hsecs : policy.next h.backoff.secs = d.secs := F64.fin.inj (fromSecsF64_secs hd)
  rw [hsecs] at hp
  rw [hg]
  exact ⟨hp, rfl⟩

theorem exists_produced (hb : h.BackoffInv) :
    ∃ cur, Produced policy SessionEnd.isOk cur h.log := by
  unfold BackoffInv at hb
  split at hb
  · exact ⟨_, hb⟩
  · exact ⟨_, hb⟩
  · exact ⟨_, hb⟩
  · exact hb
  · exact hb

theorem backoffInv_step {e : HubEvent} (hc : h'.ConnsInv c) (hb : h.BackoffInv)
    (hs : h.step c e = some h') : h'.BackoffInv := by
  have hp := hb
  unfold BackoffInv at hp
  cases step_moves hs with
  | publish s => exact hb
  | refused e hctl =>
    rw [hctl] at hp
    have hres : SessionEnd.refused.isOk = (Except.error e : Except String Unit).isOk := rfl
    exact backoffInv_sessionOver hres hp
  | connected hctl =>
    rw [hctl] at hp
    exact backoffInv_settle Conn.inv_begin hp
  | wire k k' e hctl _ =>
    rw [hctl] at hp
    refine backoffInv_settle (hc k' ?_) hp
    rw [conns_settle]
    exact List.mem_append_right _ (List.mem_singleton_self k')
  | backoffOver hctl =>
    rw [hctl] at hp
    exact (backoffInv_grow hp).1
  | stop | cut =>
    show ∃ cur, Produced policy SessionEnd.isOk cur h.log
    exact exists_produced hb

theorem backoffInv_of_reaches {seed : Snapshot} {es : List HubEvent}
    (hr : (hub c seed).Reaches es h) : h.BackoffInv :=
  hr.hist (P := fun _ t => t.BackoffInv) .start fun _ _ _ _ ht hi hs =>
    backoffInv_step (connsInv_of_reaches (ht.snoc hs)) hi hs

/-- Every wait is `min(30, 1.7^k)` seconds, `k` the waits since startup or since the last session
that reached welcome ended. -/
def BackoffLaw (h : Task) : Prop :=
  ∀ pre d post, h.log = pre ++ .waited d :: post →
    d = min 30 ((17 / 10) ^ since SessionEnd.reachedWelcome pre)

/-- No session but the first reached welcome and then ended in an error. -/
def BrokenOnlyFirst (h : Task) : Prop :=
  ∀ pre post, h.log = pre ++ .ended .broken :: post → pre = []

theorem backoffLaw_iff_lawful : h.BackoffLaw ↔ Lawful policy SessionEnd.reachedWelcome h.log := by
  constructor
  · rintro hl pre x post hlog d rfl
    rw [hl pre d post hlog, Backoff.delay, policy, one_mul]
  · intro hl pre d post hlog
    rw [hl pre _ post hlog d rfl, Backoff.delay, policy, one_mul]

theorem brokenOnlyFirst_iff :
    h.BrokenOnlyFirst ↔ OnlyFirst SessionEnd.isOk SessionEnd.reachedWelcome h.log := by
  constructor
  · rintro hb pre x post hlog e rfl hw hok
    obtain rfl : e = .broken := by cases e <;> simp_all [SessionEnd.isOk, SessionEnd.reachedWelcome]
    exact hb pre post hlog
  · intro hf pre post hlog
    exact hf pre _ post hlog .broken rfl rfl rfl

end Task

/-- **When the backoff law holds.** The waits of a run keep to the law exactly when no session but
the first reached welcome and ended in an error. -/
theorem backoff_law_iff {seed : Snapshot} {es : List HubEvent} {h : Task}
    (hr : (hub c seed).Reaches es h) : h.BackoffLaw ↔ h.BrokenOnlyFirst := by
  obtain ⟨cur, hp⟩ := Task.exists_produced (Task.backoffInv_of_reaches hr)
  rw [Task.backoffLaw_iff_lawful, Task.brokenOnlyFirst_iff]
  exact hp.lawful_iff SessionEnd.reachedWelcome_of_isOk

/-- A refusal, then a session that a failed send ends after its welcome. -/
def refusedThenBroken : List HubEvent :=
  [.connectFailed "connection refused", .backoffOver, .connected, .wire .sent,
    .wire (.recv (some (.ok (.text shortWelcome))) 0), .wire (.sendFailed "broken pipe" false)]

/-- The wait after the broken session is 1.7 s, not 1 s. -/
theorem backoff_law_fails :
    ∃ h, (hub lab .default).Reaches refusedThenBroken h ∧ ¬ h.BackoffLaw := by
  have hrun : ∃ h, (hub lab .default).Reaches refusedThenBroken h ∧
      h.log = [.ended .refused, .waited 1, .ended .broken, .waited (17 / 10)] := by
    with_unfolding_all exact ⟨_, rfl, rfl⟩
  obtain ⟨h, hr, hlog⟩ := hrun
  refine ⟨h, hr, fun hl => ?_⟩
  have hlaw := hl [.ended .refused, .waited 1, .ended .broken] (17 / 10) [] hlog
  have hk : since SessionEnd.reachedWelcome [.ended .refused, .waited 1, .ended .broken] = 0 := rfl
  rw [hk] at hlaw
  norm_num at hlaw

theorem backoff_law_twoRefusals :
    ∃ h, (hub lab .default).Reaches
      [.connectFailed "connection refused", .backoffOver, .connectFailed "connection refused"] h ∧
      h.BackoffLaw := by
  have hrun : ∃ h, (hub lab .default).Reaches
      [.connectFailed "connection refused", .backoffOver, .connectFailed "connection refused"] h ∧
      h.log = [.ended .refused, .waited 1, .ended .refused, .waited (17 / 10)] := by
    with_unfolding_all exact ⟨_, rfl, rfl⟩
  obtain ⟨h, hr, hlog⟩ := hrun
  refine ⟨h, hr, (backoff_law_iff hr).mpr fun pre post hl => ?_⟩
  have hm : .ended .broken ∈ h.log := hl ▸ List.mem_append_right _ (List.mem_cons_self ..)
  simp [hlog] at hm

end Vigil.Hub

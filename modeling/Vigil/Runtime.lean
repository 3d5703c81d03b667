import Vigil.Hub.Supervise
import Vigil.Sampler.Served
import Vigil.Server.Ws
import Vigil.Startup

/-!
# The process

`main` starts the sampler, the hub task when there is one, and the server, all
on one thread. `runtime c` is that thread: its events are the steps of the tick
task, of the HTTP handlers, of the WebSocket sessions and of the hub task, in
any order, and the return of `serve`.

The parts are the machines of the other modules, joined where the code joins
them: whoever loads a slot of the sampler does so by a `read` of the sampler, and
a publication is at once what the hub task finds in its slot. `runtime_coherent`
gives back a run of each machine, so that what holds of their runs holds inside
the process, and puts the loads of all channels in one order.
-/

namespace Vigil

open Vigil.Lib Vigil.Metrics

/-- The build, the serializer, and what `main` reads before it starts the tasks. -/
structure Setup where
  strategy : PanicStrategy
  ser : ToVec
  /-- the hub client, if `main` starts one -/
  hub : Option Hub.Client
  maxWsConnections : Nat
  seed : Reading
  first : Reading

structure Runtime where
  sampler : Sampler
  ws : Server.WsServer
  hub : Option Hub.Task
  /-- the texts that sessions handed to `socket.send` -/
  texts : List (Nat × String)
  /-- `main` has returned, or a panic outside the sampler has aborted the process -/
  ended : Bool

inductive RuntimeEvent where
  | tick (e : SamplerEvent)
  /-- `GET /system` or `GET /network` -/
  | get (client : Nat) (e : Endpoint)
  | probes (settings : Settings)
  | ws (e : Server.Event)
  /-- session `k` is at the top of its push loop -/
  | push (k : Nat)
  | hub (e : Hub.HubEvent)
  /-- `serve` has returned: `main` stops the hub client and the sampler, and returns -/
  | shutdown

def SamplerEvent.isTick : SamplerEvent → Bool
  | .stop | .read _ _ => false
  | _ => true

def Endpoint.isRoute : Endpoint → Bool
  | .system | .network => true
  | .connect | .hub => false

def Server.Event.isPlain : Server.Event → Bool
  | .start _ _ | .wake _ _ => false
  | _ => true

def Hub.HubEvent.isOwn : Hub.HubEvent → Bool
  | .publish _ | .stop => false
  | _ => true

def Hub.Task.isDead (h : Hub.Task) : Bool :=
  match h.ctl with
  | .dead => true
  | _ => false

def Hub.Task.publish (h : Hub.Task) (s : Snapshot) : Hub.Task :=
  { h with earlier := h.earlier ++ [h.slot], slot := s }

/-- `String::from_utf8`. -/
def fromUtf8 (b : ByteArray) : Except String String :=
  match String.fromUTF8? b with
  | some s => .ok s
  | none => .error "invalid utf-8 sequence"

namespace Runtime

variable (c : Setup) (s : Runtime)

def read (client : Nat) (e : Endpoint) : Option Sampler :=
  s.sampler.step c.strategy c.ser (.read client e)

/-- A step of the tick task; `joined` publishes. -/
def tick (e : SamplerEvent) : Option Runtime :=
  (s.sampler.step c.strategy c.ser e).map fun p =>
    match e with
    | .joined => { s with sampler := p, hub := s.hub.map (·.publish p.snapshot) }
    | _ => { s with sampler := p }

/-- `probes::run` converts the timeout first; a panic there is one of the connection's task. -/
def probes (settings : Settings) : Runtime :=
  match Probes.timeout settings, c.strategy with
  | none, .abort => { s with ended := true }
  | _, _ => s

def push (k : Nat) : Option Runtime :=
  let buf := fromUtf8 s.sampler.json.wsSystem
  let e := if s.ws.sessions[k]? = some .upgraded then .start k buf else .wake k buf
  (s.ws.step e).bind fun w =>
    (s.read c k .connect).map fun p =>
      { s with sampler := p, ws := w, texts := s.texts ++ (buf.toOption.map (k, ·)).toList }

/-- A step of the hub task; where it begins a round, it has loaded the snapshot. -/
def pollHub (h h' : Hub.Task) : Option Runtime :=
  let s := { s with hub := some h', ended := h'.isDead && c.strategy = .abort }
  if h'.rounds.length = h.rounds.length then some s
  else (s.read c 0 .hub).map fun p => { s with sampler := p }

/-- `hc.stop()`, `sampler.stop()` and the end of `main`. -/
def shutdown : Runtime :=
  { s with
    sampler := (s.sampler.step c.strategy c.ser .stop).getD s.sampler
    hub := match c.hub with
      | some cl => s.hub.map fun h => (h.step cl .stop).getD h
      | none => s.hub
    ended := true }

def step (e : RuntimeEvent) : Option Runtime :=
  if s.ended || s.sampler.aborted then none
  else
    match e with
    | .tick e => if e.isTick then s.tick c e else none
    | .get client e => if e.isRoute then (s.read c client e).map ({ s with sampler := · }) else none
    | .probes settings => some (s.probes c settings)
    | .ws e => if e.isPlain then (s.ws.step e).map ({ s with ws := · }) else none
    | .push k => s.push c k
    | .hub e =>
      match c.hub, s.hub with
      | some cl, some h => if e.isOwn then (h.step cl e).bind (s.pollHub c h) else none
      | _, _ => none
    | .shutdown => some (s.shutdown c)

end Runtime

def Setup.seeded (c : Setup) : Snapshot := (Sampler.start c.ser c.seed c.first).snapshot

def runtime (c : Setup) : Machine Runtime RuntimeEvent where
  init :=
    { sampler := .start c.ser c.seed c.first
      ws := .new c.maxWsConnections
      hub := c.hub.map fun cl => (Hub.hub cl c.seeded).init
      texts := []
      ended := false }
  step s := s.step c

/-! ## What a step does -/

namespace Runtime

/-- **The moves of the process.** -/
inductive Moves (c : Setup) (s : Runtime) : RuntimeEvent → Runtime → Prop where
  | tick (e : SamplerEvent) (p : Sampler) : e.isTick = true → e ≠ .joined →
      s.sampler.step c.strategy c.ser e = some p → Moves c s (.tick e) { s with sampler := p }
  | publish (p : Sampler) : s.sampler.step c.strategy c.ser .joined = some p →
      Moves c s (.tick .joined) { s with sampler := p, hub := s.hub.map (·.publish p.snapshot) }
  | get (client : Nat) (e : Endpoint) (p : Sampler) : e.isRoute = true →
      s.read c client e = some p → Moves c s (.get client e) { s with sampler := p }
  | probes (settings : Settings) : Moves c s (.probes settings) (s.probes c settings)
  | ws (e : Server.Event) (w : Server.WsServer) : s.ws.step e = some w →
      Moves c s (.ws e) { s with ws := w }
  | push (k : Nat) (e : Server.Event) (w : Server.WsServer) (p : Sampler) :
      s.ws.step e = some w → s.read c k .connect = some p →
      Moves c s (.push k) { s with
        sampler := p
        ws := w
        texts := s.texts ++ ((fromUtf8 s.sampler.json.wsSystem).toOption.map (k, ·)).toList }
  | hub (cl : Hub.Client) (h h' : Hub.Task) (e : Hub.HubEvent) : c.hub = some cl →
      s.hub = some h → e.isOwn = true → h.step cl e = some h' →
      h'.rounds.length = h.rounds.length →
      Moves c s (.hub e) { s with hub := some h', ended := h'.isDead && c.strategy = .abort }
  | round (cl : Hub.Client) (h h' : Hub.Task) (e : Hub.HubEvent) (p : Sampler) :
      c.hub = some cl → s.hub = some h → e.isOwn = true → h.step cl e = some h' →
      h'.rounds.length ≠ h.rounds.length → s.read c 0 .hub = some p →
      Moves c s (.hub e) { s with
        sampler := p, hub := some h', ended := h'.isDead && c.strategy = .abort }
  | shutdown : Moves c s .shutdown (s.shutdown c)

variable {c : Setup} {s s' : Runtime}

theorem step_moves {e : RuntimeEvent} (h : s.step c e = some s') : Moves c s e s' := by
  unfold step at h
  split at h
  · cases h
  cases e with
  | tick e =>
    dsimp only at h
    split at h
    · next he =>
      obtain ⟨p, hp, rfl⟩ := Option.map_eq_some_iff.mp h
      split
      · exact .publish p hp
      · next hj => exact .tick e p he hj hp
    · cases h
  | get client e =>
    dsimp only at h
    split at h
    · next he =>
      obtain ⟨p, hp, rfl⟩ := Option.map_eq_some_iff.mp h
      exact .get client e p he hp
    · cases h
  | probes settings => cases h; exact .probes settings
  | ws e =>
    dsimp only at h
    split at h
    · obtain ⟨w, hw, rfl⟩ := Option.map_eq_some_iff.mp h
      exact .ws e w hw
    · cases h
  | push k =>
    obtain ⟨w, hw, h⟩ := Option.bind_eq_some_iff.mp h
    obtain ⟨p, hp, rfl⟩ := Option.map_eq_some_iff.mp h
    exact .push k _ w p hw hp
  | hub e =>
    dsimp only at h
    split at h
    · next cl t hcl ht =>
      split at h
      · next he =>
        obtain ⟨t', ht', h⟩ := Option.bind_eq_some_iff.mp h
        unfold pollHub at h
        dsimp only at h
        split at h
        · next hlen => cases h; exact .hub cl t t' e hcl ht he ht' hlen
        · next hlen =>
          obtain ⟨p, hp, rfl⟩ := Option.map_eq_some_iff.mp h
          exact .round cl t t' e p hcl ht he ht' hlen hp
      · cases h
    · cases h
  | shutdown => cases h; exact .shutdown

end Runtime

/-! ## What the parts do -/

namespace Sampler

variable {strategy : PanicStrategy} {ser : ToVec} {s s' : Sampler}

theorem read_spec {client : Nat} {e : Endpoint}
    (h : s.step strategy ser (.read client e) = some s') :
    s'.published = s.published ∧
      s'.reads = s.reads ++ [⟨client, e, s.load e, s.published.length - 1⟩] := by
  cases (step_moves h).2 with
  | read => exact ⟨rfl, rfl⟩

theorem tick_spec {e : SamplerEvent} (he : e.isTick = true) (hj : e ≠ .joined)
    (h : s.step strategy ser e = some s') : s'.published = s.published ∧ s'.reads = s.reads := by
  cases (step_moves h).2 with
  | joined => exact absurd rfl hj
  | expect | rebuildPanics => cases strategy <;> exact ⟨rfl, rfl⟩
  | wake | refreshed | failed | abort | rebuilt => exact ⟨rfl, rfl⟩
  | stop | read => cases he

theorem joined_spec (h : s.step strategy ser .joined = some s') :
    s'.published.map Publication.snap = s.published.map Publication.snap ++ [s'.snapshot] ∧
      s'.reads = s.reads := by
  cases (step_moves h).2 with
  | joined snap st _ => exact ⟨by simp [publish], rfl⟩

theorem stop_spec (h : s.step strategy ser .stop = some s') :
    s'.published = s.published ∧ s'.reads = s.reads := by
  cases (step_moves h).2 with
  | stop => exact ⟨rfl, rfl⟩

end Sampler

namespace Hub.Task

variable {cl : Client} {h h' : Task} {e : HubEvent}

theorem published_step (he : ∀ s, e ≠ .publish s) (hs : h.step cl e = some h') :
    h'.published = h.published := by
  cases step_moves hs with
  | publish s => exact absurd rfl (he s)
  | connected | wire => simp [published]
  | backoffOver => simp [published]
  | refused | stop | cut => rfl

theorem rounds_step (hs : h.step cl e = some h') :
    h'.rounds = h.rounds ∨ ∃ ts, h'.rounds = h.rounds ++ [h.round ts] := by
  cases connMoves_of_step hs with
  | publish s hc _ | other hc _ => exact .inl (by rw [rounds, hc, rounds])
  | opened hc _ => exact .inl (by simp [rounds, hc, Conn.begin])
  | moved k k' e hc hk hc' _ =>
    rcases Conn.rounds_step hk with hkr | ⟨ts, hkr⟩
    · exact .inl (by simp [rounds, hc, hc', hkr])
    · exact .inr ⟨ts, by simp [rounds, hc, hc', hkr]⟩

theorem rounds_stop (hs : h.step cl .stop = some h') : h'.rounds = h.rounds := by
  cases step_moves hs with
  | stop hc =>
    have hne : ∀ k, h.ctl ≠ .connected k := by
      intro k hk
      rcases hc with hc | hc <;> rw [hc] at hk <;> cases hk
    rw [rounds, rounds, conns_of_not_connected hne, conns_of_not_connected (by simp)]
  | cut k hc => simp [rounds, conns, hc]

end Hub.Task

/-! ## Coherence -/

/-- The text that a load of the WebSocket buffer hands on, and its session. -/
def Read.text? (r : Read) : Option (Nat × String) :=
  match r.endpoint, r.content with
  | .connect, .bytes b => (fromUtf8 b).toOption.map (r.client, ·)
  | _, _ => none

def Read.round? (r : Read) : Option (Nat × Snapshot) :=
  match r.endpoint, r.content with
  | .hub, .snapshot s => some (r.version, s)
  | _, _ => none

theorem filterMap_snoc {α β : Type} (f : α → Option β) (l : List α) (a : α) :
    (l ++ [a]).filterMap f = l.filterMap f ++ (f a).toList := by
  rw [List.filterMap_append]
  cases h : f a <;> simp [h]

namespace Runtime

/-- The parts of the process stand where runs of their machines lead. -/
structure Parts (c : Setup) (s : Runtime) : Prop where
  sampler : ∃ es, (Vigil.sampler c.strategy c.ser c.seed c.first).Reaches es s.sampler
  ws : ∃ es, (Server.server c.maxWsConnections).Reaches es s.ws
  hub : ∀ h, s.hub = some h → ∃ cl es, c.hub = some cl ∧ (Hub.hub cl c.seeded).Reaches es h

/-- The parts agree on what has been published and loaded. -/
structure Joined (s : Runtime) : Prop where
  published : ∀ h, s.hub = some h → h.published = s.sampler.published.map Publication.snap
  texts : s.texts = s.sampler.reads.filterMap Read.text?
  rounds : ∀ h, s.hub = some h → h.rounds.map (fun r => (r.version, r.snap)) =
    s.sampler.reads.filterMap Read.round?

variable {c : Setup} {s s' : Runtime}

theorem shutdown_sampler : (s.shutdown c).sampler = s.sampler ∨
    s.sampler.step c.strategy c.ser .stop = some (s.shutdown c).sampler := by
  dsimp only [shutdown]
  cases s.sampler.step c.strategy c.ser .stop with
  | none => exact .inl rfl
  | some p => exact .inr rfl

theorem shutdown_hub {x : Hub.Task} (h : (s.shutdown c).hub = some x) : s.hub = some x ∨
    ∃ cl t, c.hub = some cl ∧ s.hub = some t ∧ t.step cl .stop = some x := by
  dsimp only [shutdown] at h
  split at h
  · next cl hcl =>
    obtain ⟨t, ht, hx⟩ := Option.map_eq_some_iff.mp h
    cases hstop : t.step cl .stop with
    | none =>
      rw [hstop] at hx
      exact .inl (ht.trans (congrArg some hx))
    | some t' =>
      rw [hstop] at hx
      exact .inr ⟨cl, t, hcl, ht, hstop.trans (congrArg some hx)⟩
  · exact .inl h

theorem parts_init : ((runtime c).init).Parts c where
  sampler := ⟨[], Machine.Reaches.nil⟩
  ws := ⟨[], Machine.Reaches.nil⟩
  hub h hh := by
    obtain ⟨cl, hcl, rfl⟩ := Option.map_eq_some_iff.mp hh
    exact ⟨cl, [], hcl, Machine.Reaches.nil⟩

theorem parts_step {e : RuntimeEvent} (hp : s.Parts c) (h : s.step c e = some s') :
    s'.Parts c := by
  obtain ⟨⟨es, hsam⟩, ⟨fs, hws⟩, hhub⟩ := hp
  have hown : ∀ {cl t t' f}, c.hub = some cl → s.hub = some t → t.step cl f = some t' →
      ∀ x, some t' = some x → ∃ cl es, c.hub = some cl ∧ (Hub.hub cl c.seeded).Reaches es x := by
    intro cl t t' f hcl ht hstep x hx
    obtain ⟨cl', gs, hcl', hr⟩ := hhub t ht
    obtain rfl : cl = cl' := Option.some.inj (hcl.symm.trans hcl')
    cases hx
    exact ⟨cl, _, hcl, hr.snoc hstep⟩
  have hrun : ∀ {f p}, s.sampler.step c.strategy c.ser f = some p →
      ∃ es, (Vigil.sampler c.strategy c.ser c.seed c.first).Reaches es p :=
    fun hs => ⟨_, hsam.snoc hs⟩
  cases step_moves h with
  | tick e p _ _ hs => exact ⟨hrun hs, ⟨fs, hws⟩, hhub⟩
  | publish p hs =>
    refine ⟨hrun hs, ⟨fs, hws⟩, fun x hx => ?_⟩
    obtain ⟨t, ht, rfl⟩ := Option.map_eq_some_iff.mp hx
    obtain ⟨cl, gs, hcl, hr⟩ := hhub t ht
    exact ⟨cl, _, hcl, hr.snoc (e := .publish p.snapshot) rfl⟩
  | get client e p _ hs => exact ⟨hrun hs, ⟨fs, hws⟩, hhub⟩
  | probes settings =>
    unfold probes
    split
    · exact ⟨⟨es, hsam⟩, ⟨fs, hws⟩, hhub⟩
    · exact ⟨⟨es, hsam⟩, ⟨fs, hws⟩, hhub⟩
  | ws e w hw => exact ⟨⟨es, hsam⟩, ⟨_, hws.snoc hw⟩, hhub⟩
  | push k e w p hw hs => exact ⟨hrun hs, ⟨_, hws.snoc hw⟩, hhub⟩
  | hub cl t t' f hcl ht _ hstep _ => exact ⟨⟨es, hsam⟩, ⟨fs, hws⟩, hown hcl ht hstep⟩
  | round cl t t' f p hcl ht _ hstep _ hs =>
    exact ⟨hrun hs, ⟨fs, hws⟩, hown hcl ht hstep⟩
  | shutdown =>
    refine ⟨?_, ⟨fs, hws⟩, fun x hx => ?_⟩
    · rcases shutdown_sampler (c := c) (s := s) with hs | hs
      · exact ⟨es, hs ▸ hsam⟩
      · exact hrun hs
    · rcases shutdown_hub hx with hx | ⟨cl, t, hcl, ht, hstop⟩
      · exact hhub x hx
      · exact hown hcl ht hstop x rfl

theorem parts_of_reaches {es : List RuntimeEvent} (hr : (runtime c).Reaches es s) : s.Parts c :=
  hr.inv (P := Parts c) parts_init fun _ _ _ hp hs => parts_step hp hs

theorem joined_init : ((runtime c).init).Joined where
  published h hh := by
    obtain ⟨cl, _, rfl⟩ := Option.map_eq_some_iff.mp hh
    rfl
  texts := rfl
  rounds h hh := by
    obtain ⟨cl, _, rfl⟩ := Option.map_eq_some_iff.mp hh
    rfl

/-- A step of the hub task begins no round, or one with what a load sees. -/
theorem round_step (hc : s.sampler.Current c.ser) (hj : s.Joined) {cl : Hub.Client}
    {t t' : Hub.Task} {e : Hub.HubEvent} (ht : s.hub = some t) (hs : t.step cl e = some t') :
    t'.rounds = t.rounds ∨ ∃ ts, t'.rounds =
      t.rounds ++ [⟨s.sampler.published.length - 1, s.sampler.snapshot, ts⟩] := by
  refine (Hub.Task.rounds_step hs).imp_right fun ⟨ts, h⟩ => ⟨ts, ?_⟩
  obtain ⟨p, hl, hshow⟩ := hc
  have hslot : s.sampler.snapshot = p.snap := hshow .hub
  have hpub := hj.published t ht
  have hlen := congrArg List.length hpub
  have hlast := congrArg List.getLast? hpub
  simp only [Hub.Task.published, List.length_append, List.length_singleton, List.length_map] at hlen
  simp only [Hub.Task.published, List.getLast?_concat, List.getLast?_map, hl, Option.map_some,
    Option.some.injEq] at hlast
  rw [h, Hub.Task.round, hlast, ← hslot, ← hlen, Nat.add_sub_cancel]

theorem Joined.own (hj : s.Joined) {cl : Hub.Client} {t t' : Hub.Task} {e : Hub.HubEvent}
    (ht : s.hub = some t) (he : e.isOwn = true) (hs : t.step cl e = some t') :
    t'.published = s.sampler.published.map Publication.snap := by
  rw [Hub.Task.published_step (fun x hx => by rw [hx] at he; cases he) hs, hj.published t ht]

theorem joined_step {e : RuntimeEvent} (hc : s.sampler.Current c.ser) (hj : s.Joined)
    (h : s.step c e = some s') : s'.Joined := by
  cases step_moves h with
  | tick e p he hne hs =>
    obtain ⟨hpub, hreads⟩ := Sampler.tick_spec he hne hs
    exact ⟨by simpa only [hpub] using hj.published, by simpa only [hreads] using hj.texts,
      by simpa only [hreads] using hj.rounds⟩
  | publish p hs =>
    obtain ⟨hpub, hreads⟩ := Sampler.joined_spec hs
    refine ⟨fun x hx => ?_, by simpa only [hreads] using hj.texts, fun x hx => ?_⟩
    · obtain ⟨t, ht, rfl⟩ := Option.map_eq_some_iff.mp hx
      rw [hpub, ← hj.published t ht]
      rfl
    · obtain ⟨t, ht, rfl⟩ := Option.map_eq_some_iff.mp hx
      rw [hreads, ← hj.rounds t ht]
      rfl
  | get client e p he hs =>
    obtain ⟨hpub, hreads⟩ := Sampler.read_spec hs
    have hnone : ∀ r : Read, r.endpoint = e → r.text? = none ∧ r.round? = none := by
      rintro ⟨client, ep, content, version⟩ rfl
      cases ep <;> cases he <;> exact ⟨rfl, rfl⟩
    obtain ⟨htext, hround⟩ := hnone _ (rfl : (Read.mk client e _ _).endpoint = e)
    refine ⟨by simpa only [hpub] using hj.published, ?_, fun x hx => ?_⟩
    · rw [hreads, filterMap_snoc, htext]
      simpa using hj.texts
    · rw [hreads, filterMap_snoc, hround]
      simpa using hj.rounds x hx
  | probes settings =>
    unfold probes
    split <;> exact ⟨hj.published, hj.texts, hj.rounds⟩
  | ws e w hw => exact ⟨hj.published, hj.texts, hj.rounds⟩
  | push k e w p hw hs =>
    obtain ⟨hpub, hreads⟩ := Sampler.read_spec hs
    refine ⟨by simpa only [hpub] using hj.published, ?_, fun x hx => ?_⟩
    · rw [hreads, filterMap_snoc, hj.texts]
      rfl
    · rw [hreads, filterMap_snoc]
      simpa [Read.round?] using hj.rounds x hx
  | hub cl t t' f hcl ht he hs hlen =>
    refine ⟨?_, hj.texts, ?_⟩
    · rintro x ⟨⟩
      exact hj.own ht he hs
    · rintro x ⟨⟩
      rcases round_step hc hj ht hs with hr | ⟨ts, hr⟩
      · rw [hr]
        exact hj.rounds t ht
      · simp [hr] at hlen
  | round cl t t' f p hcl ht he hs hlen hread =>
    obtain ⟨hpub, hreads⟩ := Sampler.read_spec hread
    refine ⟨?_, ?_, ?_⟩
    · rintro x ⟨⟩
      rw [hpub]
      exact hj.own ht he hs
    · rw [hreads, filterMap_snoc]
      simpa [Read.text?] using hj.texts
    · rintro x ⟨⟩
      rcases round_step hc hj ht hs with hr | ⟨ts, hr⟩
      · exact absurd (congrArg List.length hr) hlen
      · rw [hr, hreads, List.map_append, hj.rounds t ht, List.filterMap_append]
        rfl
  | shutdown =>
    have hsam : (s.shutdown c).sampler.published = s.sampler.published ∧
        (s.shutdown c).sampler.reads = s.sampler.reads := by
      rcases shutdown_sampler (c := c) (s := s) with hs | hs
      · rw [hs]
        exact ⟨rfl, rfl⟩
      · exact Sampler.stop_spec hs
    refine ⟨fun x hx => ?_, hsam.2 ▸ hj.texts, fun x hx => ?_⟩
    · rw [hsam.1]
      rcases shutdown_hub hx with hx | ⟨cl, t, hcl, ht, hstop⟩
      · exact hj.published x hx
      · rw [Hub.Task.published_step (fun _ hp => (by cases hp)) hstop, hj.published t ht]
    · rw [hsam.2]
      rcases shutdown_hub hx with hx | ⟨cl, t, hcl, ht, hstop⟩
      · exact hj.rounds x hx
      · rw [Hub.Task.rounds_stop hstop, hj.rounds t ht]

theorem joined_of_reaches (ht : c.ser.Total) {es : List RuntimeEvent}
    (hr : (runtime c).Reaches es s) : s.Joined := by
  refine hr.hist (P := fun _ s => s.Joined) joined_init fun es e s s' h hj hs => ?_
  obtain ⟨fs, hf⟩ := (parts_of_reaches h).sampler
  exact joined_step (Sampler.current_of_reaches ht hf) hj hs

end Runtime

theorem toUTF8_of_fromUtf8 {b : ByteArray} {t : String} (h : fromUtf8 b = .ok t) :
    t.toUTF8 = b := by
  unfold fromUtf8 String.fromUTF8? at h
  split at h
  · next u hu =>
    cases h
    split at hu
    · next hv =>
      cases hu
      rfl
    · cases hu
  · cases h

theorem Runtime.Joined.text_shows {c : Setup} {s : Runtime} (hj : s.Joined)
    (hl : s.sampler.ReadsInOrder c.ser) {kt : Nat × String} (h : kt ∈ s.texts) :
    ∃ p ∈ s.sampler.published, c.ser.wsView p.snap.wsView = some kt.2.toUTF8 := by
  rw [hj.texts] at h
  obtain ⟨⟨client, e, content, version⟩, hr, ht⟩ := List.mem_filterMap.mp h
  obtain ⟨p, hp, hs⟩ := hl.valid _ hr
  cases e <;> cases content <;> try cases ht
  next b =>
    obtain ⟨t, htext, rfl⟩ := Option.map_eq_some_iff.mp ht
    have hok : fromUtf8 b = .ok t := by
      cases hb : fromUtf8 b with
      | error e => rw [hb] at htext; cases htext
      | ok u => rw [hb] at htext; cases htext; rfl
    exact ⟨p, List.mem_of_getElem? hp, (toUTF8_of_fromUtf8 hok).symm ▸ hs⟩

/-- **The process is coherent.** In every run of the process each part does a run of its own
machine; every load, through whatever channel, shows one publication and none an older one than a
load before it on any channel; and the texts of the sessions and the rounds of the hub task are what
those loads saw, each text a serialized publication. -/
theorem runtime_coherent {c : Setup} (ht : c.ser.Total) {es : List RuntimeEvent} {s : Runtime}
    (hr : (runtime c).Reaches es s) :
    s.Parts c ∧ s.sampler.ReadsInOrder c.ser ∧ s.Joined ∧
      ∀ kt ∈ s.texts, ∃ p ∈ s.sampler.published, c.ser.wsView p.snap.wsView = some kt.2.toUTF8 := by
  have hjoined : s.Joined := Runtime.joined_of_reaches ht hr
  have hparts := Runtime.parts_of_reaches hr
  obtain ⟨fs, hf⟩ := hparts.sampler
  have hreads := Sampler.readsInOrder_of_reaches ht hf
  exact ⟨hparts, hreads, hjoined, fun kt hkt => hjoined.text_shows hreads hkt⟩

/-- The release build on a quiet host, with one session and a hub. -/
def quietSetup : Setup := ⟨.abort, quietToVec, some Hub.lab, 1, .quiet, .quiet⟩

def quietHour : List RuntimeEvent :=
  [.ws (.createWorker "a" none), .hub .connected, .hub (.wire .sent),
    .hub (.wire (.recv (some (.ok (.text Hub.shortWelcome))) 100)), .tick .wake,
    .ws (.connect (some "a")), .tick (.refreshed .quiet), .get 7 .system, .tick .joined,
    .hub (.wire .sent), .ws (.upgraded 0), .push 0, .hub (.wire (.slept 105)), .get 7 .network,
    .shutdown]

theorem runtime_coherent_quietHour : ∃ s, (runtime quietSetup).Reaches quietHour s ∧
    s.sampler.reads.map Read.version = [0, 0, 1, 1, 1] ∧ s.Parts quietSetup ∧ s.Joined := by
  have hrun : ((runtime quietSetup).run (runtime quietSetup).init quietHour).map
      (fun s => s.sampler.reads.map Read.version) = some [0, 0, 1, 1, 1] := by
    decide +kernel
  obtain ⟨s, hr, hv⟩ := Option.map_eq_some_iff.mp hrun
  obtain ⟨hp, -, hj, -⟩ := runtime_coherent (c := quietSetup) quietToVec_total hr
  exact ⟨s, hr, hv, hp, hj⟩

end Vigil

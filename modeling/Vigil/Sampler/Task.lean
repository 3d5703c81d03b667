import Vigil.Lib.Machine
import Vigil.Sampler.State

/-!
# The tick task and its readers

`sampler strategy ser seed first` is the sampler from the moment `Sampler::start`
has returned: the tick task, and the readers of what it publishes. The runtime is
single-threaded, so whatever runs between two await points is one step:

* `wake`: the sleep is over, the state is taken and the refresh handed to the
  blocking pool;
* `refreshed`, `refreshPanics`: what becomes of the refresh there;
* `joined`: the task takes back the state and publishes;
* `rebuilt`, `rebuildPanics`: the task got a join error and builds a new state;
* `read`: a handler, a WebSocket session or the hub task loads a slot.

`strategy` is the panic strategy of the build. Under `abort` any panic ends the
process; under `unwind` a panic on the blocking pool is a join error, and one on
the task itself ends the task.

Next to its state a `Sampler` carries what has happened so far: the refreshes of
the present `SamplerState`, every snapshot published, and every read.
-/

namespace Vigil

open Vigil.Lib Vigil.Metrics

/-- `serde_json::to_vec` on the three views, `none` when it fails. -/
structure ToVec where
  httpView : HttpSystemView → Option ByteArray
  wsView : WsSystemView → Option ByteArray
  networkView : NetworkView → Option ByteArray

structure CachedJson where
  httpSystem : ByteArray
  wsSystem : ByteArray
  network : ByteArray

namespace CachedJson

def new : CachedJson where
  httpSystem := "\x7b\x7d".toUTF8
  wsSystem := "\x7b\x7d".toUTF8
  network := "\x7b\"interfaces\":[],\"statistics\":\x7b\x7d\x7d".toUTF8

def publish (j : CachedJson) (ser : ToVec) (snap : Snapshot) : CachedJson where
  httpSystem := (ser.httpView snap.httpView).getD j.httpSystem
  wsSystem := (ser.wsView snap.wsView).getD j.wsSystem
  network := (ser.networkView snap.networkView).getD j.network

end CachedJson

inductive PanicStrategy where
  | unwind
  | abort
  deriving DecidableEq

inductive TickTask where
  | sleeping (state : Option SamplerState)
  | refreshing (owned : SamplerState)
  /-- the refresh is over, and the task has not been polled yet; `none` is a join error -/
  | joining (res : Option (Snapshot × SamplerState))
  | stopped
  | panicked

/-- A snapshot is read by `GET /system`, by `GET /network`, for a frame of a WebSocket session
(`connect`) and for a round of the hub task. -/
inductive Endpoint where
  | system
  | connect
  | network
  | hub

inductive Content where
  | bytes (b : ByteArray)
  | snapshot (s : Snapshot)

/-- One load of a slot; `version` counts the snapshots published before it. -/
structure Read where
  client : Nat
  endpoint : Endpoint
  content : Content
  version : Nat

/-- A published snapshot and the refreshes its state has seen, its own the last. -/
structure Publication where
  snap : Snapshot
  life : List Refresh

structure Sampler where
  json : CachedJson
  snapshot : Snapshot
  statics : Statics
  task : TickTask
  aborted : Bool
  life : List Refresh
  published : List Publication
  reads : List Read

inductive SamplerEvent where
  | wake
  | refreshed (r : Reading)
  /-- the refresh panics, having initialised some statics -/
  | refreshPanics (g : Statics)
  | joined
  | rebuilt (r : Reading)
  | rebuildPanics
  | stop
  | read (client : Nat) (e : Endpoint)

namespace Sampler

/-- `Sampler::start`: the state is built and refreshed once, and the result is published. -/
def start (ser : ToVec) (seed first : Reading) : Sampler :=
  let res := (SamplerState.new seed).refresh .uninit first
  let life := [⟨.uninit, first⟩]
  { json := CachedJson.new.publish ser res.1
    snapshot := res.1
    statics := res.2.2
    task := .sleeping (some res.2.1)
    aborted := false
    life := life
    published := [⟨res.1, life⟩]
    reads := [] }

variable (strategy : PanicStrategy) (ser : ToVec) (s : Sampler)

def panic : Sampler :=
  match strategy with
  | .unwind => { s with task := .panicked }
  | .abort => { s with aborted := true }

def runRefresh (owned : SamplerState) (r : Reading) : Sampler :=
  let res := owned.refresh s.statics r
  { s with
    statics := res.2.2
    task := .joining (some (res.1, res.2.1))
    life := s.life ++ [⟨s.statics, r⟩] }

def publish (snap : Snapshot) (st : SamplerState) : Sampler :=
  { s with
    json := s.json.publish ser snap
    snapshot := snap
    task := .sleeping (some st)
    published := s.published ++ [⟨snap, s.life⟩] }

def load : Endpoint → Content
  | .system => .bytes s.json.httpSystem
  | .connect => .bytes s.json.wsSystem
  | .network => .bytes s.json.network
  | .hub => .snapshot s.snapshot

def step (e : SamplerEvent) : Option Sampler :=
  if s.aborted then none
  else
    match e, s.task with
    | .wake, .sleeping (some st) => some { s with task := .refreshing st }
    | .wake, .sleeping none => some (s.panic strategy)
    | .refreshed r, .refreshing owned => some (s.runRefresh owned r)
    | .refreshPanics g, .refreshing _ =>
      if s.statics.Extends g then
        match strategy with
        | .unwind => some { s with statics := g, task := .joining none }
        | .abort => some { s with aborted := true }
      else none
    | .joined, .joining (some (snap, st)) => some (s.publish ser snap st)
    | .rebuilt r, .joining none =>
      some { s with task := .sleeping (some (.new r)), life := [] }
    | .rebuildPanics, .joining none => some (s.panic strategy)
    | .stop, .stopped => none
    | .stop, _ => some { s with task := .stopped }
    | .read client e, _ =>
      some { s with reads := s.reads ++ [⟨client, e, s.load e, s.published.length - 1⟩] }
    | _, _ => none

end Sampler

/-- The sampler from the return of `Sampler::start` on. -/
def sampler (strategy : PanicStrategy) (ser : ToVec) (seed first : Reading) :
    Machine Sampler SamplerEvent where
  init := .start ser seed first
  step s := s.step strategy ser

/-! ## What a step does -/

namespace Sampler

/-- **The moves of the sampler.** -/
inductive Moves (strategy : PanicStrategy) (ser : ToVec) (s : Sampler) :
    SamplerEvent → Sampler → Prop where
  | wake (st : SamplerState) : s.task = .sleeping (some st) →
      Moves strategy ser s .wake { s with task := .refreshing st }
  | expect : s.task = .sleeping none → Moves strategy ser s .wake (s.panic strategy)
  | refreshed (owned : SamplerState) (r : Reading) : s.task = .refreshing owned →
      Moves strategy ser s (.refreshed r) (s.runRefresh owned r)
  | failed (owned : SamplerState) (g : Statics) : s.task = .refreshing owned →
      s.statics.Extends g → strategy = .unwind →
      Moves strategy ser s (.refreshPanics g) { s with statics := g, task := .joining none }
  | abort (owned : SamplerState) (g : Statics) : s.task = .refreshing owned →
      strategy = .abort → Moves strategy ser s (.refreshPanics g) { s with aborted := true }
  | joined (snap : Snapshot) (st : SamplerState) : s.task = .joining (some (snap, st)) →
      Moves strategy ser s .joined (s.publish ser snap st)
  | rebuilt (r : Reading) : s.task = .joining none →
      Moves strategy ser s (.rebuilt r) { s with task := .sleeping (some (.new r)), life := [] }
  | rebuildPanics : s.task = .joining none →
      Moves strategy ser s .rebuildPanics (s.panic strategy)
  | stop : Moves strategy ser s .stop { s with task := .stopped }
  | read (client : Nat) (e : Endpoint) : Moves strategy ser s (.read client e)
      { s with reads := s.reads ++ [⟨client, e, s.load e, s.published.length - 1⟩] }

variable {strategy : PanicStrategy} {ser : ToVec} {s s' : Sampler}

theorem step_moves {e : SamplerEvent} (h : s.step strategy ser e = some s') :
    s.aborted = false ∧ Moves strategy ser s e s' := by
  unfold step at h
  split at h
  · cases h
  · next ha =>
    refine ⟨by simpa using ha, ?_⟩
    split at h
    · next st ht => cases h; exact .wake st ht
    · next ht => cases h; exact .expect ht
    · next r owned ht => cases h; exact .refreshed owned r ht
    · next g owned ht =>
      split at h
      · next hg =>
        cases strategy with
        | unwind => cases h; exact .failed owned g ht hg rfl
        | abort => cases h; exact .abort owned g ht rfl
      · cases h
    · next snap st ht => cases h; exact .joined snap st ht
    · next r ht => cases h; exact .rebuilt r ht
    · next ht => cases h; exact .rebuildPanics ht
    · cases h
    · cases h; exact .stop
    · cases h; exact .read _ _
    · cases h

end Sampler

end Vigil

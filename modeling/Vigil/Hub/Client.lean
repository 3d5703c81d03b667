import Vigil.Hub.Flatten
import Vigil.Hub.Protocol
import Vigil.Lib.Utf8

/-!
# The hub client: what it sends and how it reads the first answer

`Client` holds what `connect_and_push` is given and what it reads of its host.
`Serde` stands for `serde_json`: the parser up to JSON values, its error
messages, and the serializer of frames.

A `Round` is one pass of `push_loop`: the snapshot and the time it loads at its
top. `Round.frames` are the frames of a round in the order they are sent; the
`build…` functions are the code's own construction, which slices strings and
would panic off a character boundary. `clip_longest` says that it never does.
-/

namespace Vigil.Hub

open Vigil.Lib

/-- `serde_json`, as far as the client uses it. -/
structure Serde where
  parse : String → Except String Json
  /-- the message for a JSON value that is no hub frame -/
  reject : String → String
  /-- the serializer: a frame stands for its own text, so only a failure shows -/
  toString : Frame → Except String Unit

/-- `serde_json::from_str::<HubFrame>`. -/
def Serde.fromStr (j : Serde) (s : String) : Except String HubFrame :=
  match j.parse s with
  | .error e => .error e
  | .ok v =>
    match HubFrame.deserialize v with
    | none => .error (j.reject s)
    | some f => .ok f

structure Client where
  key : String
  hostName : String
  tags : List String
  samplerInterval : Duration
  /-- `gethostname`, `none` when it is not valid Unicode -/
  gethostname : Option String
  /-- the text of `/etc/os-release`, `none` when it cannot be read -/
  osRelease : Option String
  arch : String
  /-- `available_parallelism`, `none` when it fails -/
  parallelism : Option Nat
  serde : Serde

/-- `detect_os` on Linux. -/
def detectOs (osRelease : Option String) : String :=
  match osRelease with
  | none => "linux"
  | some raw =>
    let lines := Text.lines raw.toList
    match lines.findSome? (Text.stripPrefix "PRETTY_NAME=") with
    | some v => String.ofList (Text.trimMatches '"' v)
    | none =>
      match lines.findSome? (Text.stripPrefix "NAME=") with
      | some v => String.ofList (Text.trimMatches '"' v)
      | none => "linux"

def Client.hello (c : Client) : Hello where
  v := protocolVersion
  t := "hello"
  key := c.key
  host :=
    { name := c.hostName
      hostname := c.gethostname.getD "unknown"
      os := detectOs c.osRelease
      arch := c.arch
      agentVersion := agentVersion
      cpuCores := c.parallelism
      tags := c.tags }

/-! ## The first frame -/

inductive Message where
  | text (s : String)
  | binary
  | ping
  | pong
  | close

/-- What `rx.next()` yields: a message, a transport error, or the end of the stream. -/
abbrev Incoming := Option (Except String Message)

/-- The push interval of a welcome frame: the hub's, or the sampler's own, and at least 0.1 s. -/
def Client.pushInterval (c : Client) (interval : Option ℚ) : Flow Duration :=
  .ofPartial (fromSecsF64 ((F64.fin (interval.getD c.samplerInterval.secs)).max (.fin (1 / 10))))

/-- `connect_and_push` on the first message after hello. -/
def Client.awaitWelcome (c : Client) : Incoming → Flow Duration
  | some (.ok (.text s)) =>
    match c.serde.fromStr s with
    | .error e => .err e
    | .ok (.welcome _ interval) => c.pushInterval interval
    | .ok (.error code message) => .err ("hub error: " ++ code.getD "" ++ " " ++ message.getD "")
    | .ok _ => .err "hub: unexpected first frame"
  | some (.ok _) => .err "hub: non-text first frame"
  | some (.error e) => .err e
  | none => .err "hub closed before welcome"

def Client.isWelcome (c : Client) : Incoming → Bool
  | some (.ok (.text s)) =>
    match c.serde.fromStr s with
    | .ok (.welcome _ _) => true
    | _ => false
  | _ => false

def Client.IsWelcome (c : Client) (m : Incoming) : Prop :=
  ∃ s hostId interval, m = some (.ok (.text s)) ∧
    c.serde.fromStr s = .ok (.welcome hostId interval)

theorem Client.isWelcome_of_isWelcome {c : Client} {m : Incoming} (h : c.IsWelcome m) :
    c.isWelcome m = true := by
  obtain ⟨s, hostId, interval, rfl, hf⟩ := h
  simp [isWelcome, hf]

theorem Client.isWelcome_of_ok {c : Client} {m : Incoming} {d : Duration}
    (h : c.awaitWelcome m = .ok d) : c.IsWelcome m := by
  match m with
  | none => cases h
  | some (.error e) => cases h
  | some (.ok .binary) | some (.ok .ping) | some (.ok .pong) | some (.ok .close) => cases h
  | some (.ok (.text s)) =>
    simp only [awaitWelcome] at h
    split at h
    · cases h
    · next hostId interval hf => exact ⟨s, hostId, interval, rfl, hf⟩
    · cases h
    · cases h

/-- The answer to the first message panics exactly when it is a welcome whose interval does not
fit a duration. -/
theorem Client.awaitWelcome_isPanic (c : Client) (m : Incoming) :
    (c.awaitWelcome m).isPanic = true ↔
      ∃ s hostId q, m = some (.ok (.text s)) ∧
        c.serde.fromStr s = .ok (.welcome hostId (some q)) ∧ 2 ^ 64 ≤ q := by
  have hint : ∀ q : ℚ, (Flow.ofPartial (fromSecsF64 ((F64.fin q).max (.fin (1 / 10))))).isPanic
      = true ↔ 2 ^ 64 ≤ q := by
    intro q
    rw [Flow.isPanic_ofPartial, ← Option.not_isSome, Bool.not_eq_true', Bool.eq_false_iff, Ne,
      fromSecsF64_max_isSome (by norm_num) (by norm_num), not_lt]
  match m with
  | none => simp [awaitWelcome]
  | some (.error e) => simp [awaitWelcome]
  | some (.ok .binary) | some (.ok .ping) | some (.ok .pong) | some (.ok .close) =>
    simp [awaitWelcome]
  | some (.ok (.text s)) =>
    simp only [awaitWelcome, Option.some.injEq, Except.ok.injEq, Message.text.injEq]
    constructor
    · intro h
      split at h
      · cases h
      · next hostId interval hf =>
        cases interval with
        | none =>
          have := (hint _).mp h
          exact absurd this (not_le.mpr c.samplerInterval.fits)
        | some q => exact ⟨s, hostId, q, rfl, hf, (hint q).mp h⟩
      · cases h
      · cases h
    · rintro ⟨_, hostId, q, rfl, hf, hq⟩
      rw [hf]
      exact (hint q).mpr hq

/-! ## Frames -/

/-- `clip(s, max)`; `none` if its slice panics. -/
def clip (s : String) (max : Nat) : Option String :=
  if Utf8.byteLen s.toList ≤ max then some s
  else (Utf8.slice s.toList (Utf8.floorBoundary s.toList max)).map String.ofList

def clipped (s : String) (max : Nat) : String := String.ofList (Utf8.takeBytes max s.toList)

theorem clip_eq (s : String) (max : Nat) : clip s max = some (clipped s max) := by
  unfold clip clipped
  split
  · next h => rw [Utf8.takeBytes_of_le h, String.ofList_toList]
  · rw [Utf8.slice_floorBoundary]; rfl

/-- `t` is the longest prefix of `s` that ends on a character boundary and has at most `max`
bytes. -/
structure IsClip (s : String) (max : Nat) (t : String) : Prop where
  isPrefix : ∃ u, s = t ++ u
  boundary : (⟨t.utf8ByteSize⟩ : String.Pos.Raw).IsValid s
  fits : t.utf8ByteSize ≤ max
  longest : ∀ n ≤ max, (⟨n⟩ : String.Pos.Raw).IsValid s → n ≤ t.utf8ByteSize

theorem clipped_isClip (s : String) (max : Nat) : IsClip s max (clipped s max) := by
  obtain ⟨u, hu⟩ := Utf8.takeBytes_isPrefix max s.toList
  have hlen : (clipped s max).utf8ByteSize = Utf8.byteLen (Utf8.takeBytes max s.toList) :=
    Utf8.utf8ByteSize_ofList _
  refine ⟨⟨String.ofList u, ?_⟩, ?_, ?_, fun n hn h => ?_⟩
  · rw [clipped, ← String.ofList_append, hu, String.ofList_toList]
  · rw [hlen, ← Utf8.isCharBoundary_toList, Utf8.isCharBoundary_iff]
    exact ⟨_, u, hu.symm, rfl⟩
  · rw [hlen]
    exact Utf8.byteLen_takeBytes max s.toList
  · rw [hlen]
    exact Utf8.isCharBoundary_le_takeBytes hn (Utf8.isCharBoundary_toList.mpr h)

/-- **`clip` never panics and returns the longest prefix that fits.** -/
theorem clip_longest (s : String) (max : Nat) :
    ∃ t, clip s max = some t ∧ IsClip s max t ∧ (s.utf8ByteSize ≤ max → t = s) ∧
      ∀ c cs, s.toList = c :: cs → max < c.utf8Size → t = "" := by
  refine ⟨clipped s max, clip_eq s max, clipped_isClip s max, fun hs => ?_, fun c cs hs hc => ?_⟩
  · rw [clipped, Utf8.takeBytes_of_le (by rw [Utf8.byteLen_toList]; exact hs),
      String.ofList_toList]
  · rw [clipped, hs, Utf8.takeBytes, if_neg (by omega)]

/-- One pass of `push_loop`: the snapshot it loads, which publication that is, and the time. -/
structure Round where
  version : Nat
  snap : Snapshot
  ts : Int
  deriving DecidableEq

namespace Round

def samples (r : Round) : Frame := .samples ⟨protocolVersion, "samples", r.ts, flatten r.snap⟩

def memBytes (p : Process) : Nat := min (p.mem.scale (1024 * 1024)).asU64 bytesCeiling

def processes (r : Round) : Frame :=
  .processes ⟨protocolVersion, "processes", r.ts, r.snap.processesMetric,
    (r.snap.processes.take processesMax).map fun p =>
      ⟨p.pid, clipped p.name 256, clipped p.username 256, memBytes p⟩⟩

def processesCpu (r : Round) : Frame :=
  .processesCpu ⟨protocolVersion, "processes_cpu", r.ts,
    (r.snap.processesByCpu.take processesMax).map fun p =>
      ⟨p.pid, clipped p.name 256, clipped p.username 256, p.cpu⟩⟩

/-- The `processes` frame as the code builds it, `none` if it panics. -/
def buildProcesses (r : Round) : Option Frame := do
  let items ← (r.snap.processes.take processesMax).mapM fun p => do
    let name ← clip p.name 256
    let username ← clip p.username 256
    some (⟨p.pid, name, username, memBytes p⟩ : ProcessItem)
  some (.processes ⟨protocolVersion, "processes", r.ts, r.snap.processesMetric, items⟩)

/-- The `processes_cpu` frame as the code builds it, `none` if it panics. -/
def buildProcessesCpu (r : Round) : Option Frame := do
  let items ← (r.snap.processesByCpu.take processesMax).mapM fun p => do
    let name ← clip p.name 256
    let username ← clip p.username 256
    some (⟨p.pid, name, username, p.cpu⟩ : ProcessCpuItem)
  some (.processesCpu ⟨protocolVersion, "processes_cpu", r.ts, items⟩)

theorem mapM_some {α β : Type} (f : α → β) (l : List α) :
    l.mapM (fun x => some (f x)) = some (l.map f) := List.mapM_pure ..

theorem buildProcesses_eq (r : Round) : r.buildProcesses = some r.processes := by
  simp only [buildProcesses, clip_eq, Option.bind_eq_bind, Option.bind_some, mapM_some]
  rfl

theorem buildProcessesCpu_eq (r : Round) : r.buildProcessesCpu = some r.processesCpu := by
  simp only [buildProcessesCpu, clip_eq, Option.bind_eq_bind, Option.bind_some, mapM_some]
  rfl

def frames (r : Round) : List Frame :=
  r.samples :: ((if r.snap.processes = [] then [] else [r.processes]) ++
    (if r.snap.processesByCpu = [] then [] else [r.processesCpu]))

end Round

end Vigil.Hub

import Vigil.Hub.Supervise
import Vigil.SnapshotJson

/-!
# What the hub reads

The serialize derives of the outgoing frames, as codecs, and a reader that tells
them apart by their tag. `rounds_decode` carries the wire protocol through it:
what the hub makes of the texts of a connection is hello and then the rounds of
the publications, in their order.

The other direction is `first_frame_read`: however a hub lays out the entries of
its welcome or of its refusal, the client gets the same out of it.
-/

namespace Vigil.Hub

open Vigil.Lib

/-! ## Frames as JSON -/

def HostInfo.codec : Codec HostInfo :=
  (Record.of HostInfo.mk
    |>.field "name" .str HostInfo.name
    |>.field "hostname" .str HostInfo.hostname
    |>.field "os" .str HostInfo.os
    |>.field "arch" .str HostInfo.arch
    |>.field "agent_version" .str HostInfo.agentVersion
    |>.field "cpu_cores" (u32.option nofun) HostInfo.cpuCores
    |>.field "tags" Codec.str.list HostInfo.tags).codec
    (by decide) fun _ => by simp only [Record.of, Record.field, Codec.enc_wire]

def Hello.codec : Codec Hello :=
  (Record.of Hello.mk
    |>.field "v" u32 Hello.v
    |>.field "t" .str Hello.t
    |>.field "key" .str Hello.key
    |>.field "host" HostInfo.codec Hello.host).codec
    (by decide) fun _ => by simp only [Record.of, Record.field, Codec.enc_wire]

def Samples.codec : Codec Samples :=
  (Record.of Samples.mk
    |>.field "v" u32 Samples.v
    |>.field "t" .str Samples.t
    |>.field "ts" .int64 Samples.ts
    |>.field "metrics" Codec.float.map Samples.metrics).codec
    (by decide) fun _ => by simp only [Record.of, Record.field, Codec.enc_wire]

def ProcessItem.codec : Codec ProcessItem :=
  (Record.of ProcessItem.mk
    |>.field "pid" u32 ProcessItem.pid
    |>.field "name" .str ProcessItem.name
    |>.field "username" .str ProcessItem.username
    |>.field "mem_bytes" u64 ProcessItem.memBytes).codec
    (by decide) fun _ => by simp only [Record.of, Record.field, Codec.enc_wire]

def Processes.codec : Codec Processes :=
  (Record.of Processes.mk
    |>.field "v" u32 Processes.v
    |>.field "t" .str Processes.t
    |>.field "ts" .int64 Processes.ts
    |>.field "metric" .str Processes.metric
    |>.field "items" ProcessItem.codec.list Processes.items).codec
    (by decide) fun _ => by simp only [Record.of, Record.field, Codec.enc_wire]

def ProcessCpuItem.codec : Codec ProcessCpuItem :=
  (Record.of ProcessCpuItem.mk
    |>.field "pid" u32 ProcessCpuItem.pid
    |>.field "name" .str ProcessCpuItem.name
    |>.field "username" .str ProcessCpuItem.username
    |>.field "cpu_pct" .float ProcessCpuItem.cpuPct).codec
    (by decide) fun _ => by simp only [Record.of, Record.field, Codec.enc_wire]

def ProcessesCpu.codec : Codec ProcessesCpu :=
  (Record.of ProcessesCpu.mk
    |>.field "v" u32 ProcessesCpu.v
    |>.field "t" .str ProcessesCpu.t
    |>.field "ts" .int64 ProcessesCpu.ts
    |>.field "items" ProcessCpuItem.codec.list ProcessesCpu.items).codec
    (by decide) fun _ => by simp only [Record.of, Record.field, Codec.enc_wire]

namespace Frame

/-- `serde_json::to_string` of a frame, up to the text of the JSON value. -/
def serialize : Frame → Json
  | hello h => Hello.codec.enc h
  | samples s => Samples.codec.enc s
  | processes p => Processes.codec.enc p
  | processesCpu p => ProcessesCpu.codec.enc p

def tagOf : Json → Option String
  | .obj kvs =>
    match Json.lookup kvs "t" with
    | some (some (.str tag)) => some tag
    | _ => none
  | _ => none

/-- A reader that goes by the tag. -/
def deserialize (j : Json) : Option Frame :=
  match tagOf j with
  | some "hello" => (Hello.codec.dec j).map hello
  | some "samples" => (Samples.codec.dec j).map samples
  | some "processes" => (Processes.codec.dec j).map processes
  | some "processes_cpu" => (ProcessesCpu.codec.dec j).map processesCpu
  | _ => none

/-- What the wire keeps of a frame: values that are not finite all become one. -/
def wire : Frame → Frame
  | hello h => hello (Hello.codec.wire h)
  | samples s => samples (Samples.codec.wire s)
  | processes p => processes (Processes.codec.wire p)
  | processesCpu p => processesCpu (ProcessesCpu.codec.wire p)

/-- The frame has the tag of its kind, and its integers are in range. -/
def Fits : Frame → Prop
  | hello h => h.t = "hello" ∧ Hello.codec.Fits h
  | samples s => s.t = "samples" ∧ Samples.codec.Fits s
  | processes p => p.t = "processes" ∧ Processes.codec.Fits p
  | processesCpu p => p.t = "processes_cpu" ∧ ProcessesCpu.codec.Fits p

/-- **A frame reads back.** -/
theorem deserialize_serialize {f : Frame} (h : f.Fits) : deserialize f.serialize = some f.wire := by
  unfold deserialize
  cases f with
  | hello x =>
    obtain ⟨ht, hx⟩ := h
    rw [show tagOf (serialize (.hello x)) = some x.t from rfl, ht]
    exact congrArg (Option.map hello) (Hello.codec.dec_enc x hx)
  | samples x =>
    obtain ⟨ht, hx⟩ := h
    rw [show tagOf (serialize (.samples x)) = some x.t from rfl, ht]
    exact congrArg (Option.map samples) (Samples.codec.dec_enc x hx)
  | processes x =>
    obtain ⟨ht, hx⟩ := h
    rw [show tagOf (serialize (.processes x)) = some x.t from rfl, ht]
    exact congrArg (Option.map processes) (Processes.codec.dec_enc x hx)
  | processesCpu x =>
    obtain ⟨ht, hx⟩ := h
    rw [show tagOf (serialize (.processesCpu x)) = some x.t from rfl, ht]
    exact congrArg (Option.map processesCpu) (ProcessesCpu.codec.dec_enc x hx)

end Frame

/-! ## A connection as the hub reads it -/

/-- The integers of what the client is given are in range. -/
def Client.InRange (c : Client) : Prop := ∀ n, c.parallelism = some n → n < 2 ^ 32

theorem hello_fits {c : Client} (h : c.InRange) : (Frame.hello c.hello).Fits := by
  have hv : protocolVersion < 2 ^ 32 := by decide
  refine ⟨rfl, ⟨⟨⟨trivial, hv⟩, trivial⟩, trivial⟩, ?_⟩
  refine ⟨⟨⟨⟨⟨⟨⟨trivial, trivial⟩, trivial⟩, trivial⟩, trivial⟩, trivial⟩, ?_⟩, fun _ _ => trivial⟩
  exact fun n hn => h n hn

def IsTs (ts : Int) : Prop := -2 ^ 63 ≤ ts ∧ ts < 2 ^ 63

namespace Round

structure InRange (r : Round) : Prop where
  snap : r.snap.InRange
  ts : IsTs r.ts

theorem frames_fit {r : Round} (h : r.InRange) : ∀ f ∈ r.frames, f.Fits := by
  have hv : protocolVersion < 2 ^ 32 := by decide
  intro f hf
  rcases List.mem_cons.mp hf with rfl | hf
  · exact ⟨rfl, ⟨⟨⟨trivial, hv⟩, trivial⟩, h.ts⟩, fun _ _ => trivial⟩
  rcases List.mem_append.mp hf with hf | hf
  · split at hf
    · cases hf
    · rw [List.mem_singleton.mp hf]
      refine ⟨rfl, ⟨⟨⟨⟨trivial, hv⟩, trivial⟩, h.ts⟩, trivial⟩, fun i hi => ?_⟩
      obtain ⟨p, hp, rfl⟩ := List.mem_map.mp hi
      have hmem : memBytes p < 2 ^ 64 := lt_of_le_of_lt (min_le_right _ _) (by decide)
      exact ⟨⟨⟨⟨trivial, h.snap.processes p (List.mem_of_mem_take hp)⟩, trivial⟩, trivial⟩, hmem⟩
  · split at hf
    · cases hf
    · rw [List.mem_singleton.mp hf]
      refine ⟨rfl, ⟨⟨⟨trivial, hv⟩, trivial⟩, h.ts⟩, fun i hi => ?_⟩
      obtain ⟨p, hp, rfl⟩ := List.mem_map.mp hi
      have hpid := h.snap.processesByCpu p (List.mem_of_mem_take hp)
      exact ⟨⟨⟨⟨trivial, hpid⟩, trivial⟩, trivial⟩, trivial⟩

end Round

def HubEvent.InRange : HubEvent → Prop
  | .publish s => s.InRange
  | .wire (.recv _ ts) | .wire (.slept ts) => IsTs ts
  | _ => True

variable {c : Client}

/-- A round that a step begins has the time stamp of its event. -/
theorem Conn.round_inRange {k k' : Conn} {e : Wire} {h : Task} (hs : h.slot.InRange)
    (he : (HubEvent.wire e).InRange) (hk : ∀ r ∈ k.rounds, r.InRange)
    (hstep : k.step c (e.at h.round) = some k') : ∀ r ∈ k'.rounds, r.InRange := by
  have hnew : ∀ ts, IsTs ts → ∀ r ∈ k.rounds ++ [h.round ts], r.InRange := by
    intro ts hts r hr
    rcases List.mem_append.mp hr with hr | hr
    · exact hk r hr
    · rw [List.mem_singleton.mp hr]
      exact ⟨hs, hts⟩
  generalize he' : e.at h.round = e' at hstep
  cases step_moves hstep with
  | answered m r _ =>
    obtain ⟨ts, rfl, hts⟩ : ∃ ts, r = h.round ts ∧ IsTs ts := by
      cases e <;> cases he'
      exact ⟨_, rfl, he⟩
    unfold welcome
    split
    · exact hnew ts hts
    · exact hk
    · exact hk
  | slept d r _ =>
    obtain ⟨ts, rfl, hts⟩ : ∃ ts, r = h.round ts ∧ IsTs ts := by
      cases e <;> cases he'
      exact ⟨_, rfl, he⟩
    exact hnew ts hts
  | helloSent | helloFailed | sent | failed | drained | stopped => exact hk

structure Task.InRange (h : Task) : Prop where
  slot : h.slot.InRange
  rounds : ∀ k ∈ h.conns, ∀ r ∈ k.rounds, r.InRange

theorem Task.slot_step {h h' : Task} {e : HubEvent} (hi : h.slot.InRange) (he : e.InRange)
    (hs : h.step c e = some h') : h'.slot.InRange := by
  cases step_moves hs with
  | publish s => exact he
  | connected | wire => rwa [slot_settle]
  | backoffOver => rwa [slot_grow]
  | refused | stop | cut => exact hi

theorem Task.inRange_step {h h' : Task} {e : HubEvent} (hi : h.InRange) (he : e.InRange)
    (hs : h.step c e = some h') : h'.InRange := by
  refine ⟨slot_step hi.slot he hs, ?_⟩
  have hended : ∀ k ∈ h.ended, ∀ r ∈ k.rounds, r.InRange :=
    fun k hk => hi.rounds k (List.mem_append_left _ hk)
  cases step_moves hs with
  | publish s => exact hi.rounds
  | refused m hc => rwa [conns_sessionOver]
  | backoffOver hc => rwa [conns_grow]
  | stop hc => rwa [conns_of_not_connected (by simp)]
  | connected hc =>
    rw [conns_settle, List.forall_mem_append]
    exact ⟨hended, List.forall_mem_singleton.mpr (List.forall_mem_nil _)⟩
  | wire k k' w hc hk =>
    rw [conns_settle, List.forall_mem_append]
    refine ⟨hended, List.forall_mem_singleton.mpr ?_⟩
    exact Conn.round_inRange hi.slot he (hi.rounds k (mem_conns_connected hc)) hk
  | cut k hc =>
    have hconns := hi.rounds
    rw [conns_connected hc] at hconns
    rwa [conns_of_not_connected (by simp)]

/-- **The stream a hub decodes.** From publications and time stamps in range, the texts of each
connection decode, and give hello and then the rounds, the last one possibly cut; the rounds of the
run show publications that exist, and none an older one than a round before it. -/
theorem rounds_decode {seed : Snapshot} {es : List HubEvent} {h : Task}
    (hr : (hub c seed).Reaches es h) (hc : c.InRange) (hseed : seed.InRange)
    (hes : ∀ e ∈ es, e.InRange) :
    (∀ k ∈ h.conns, ∃ fs, (k.frames.map Frame.serialize).mapM Frame.deserialize = some fs ∧
      fs <+: (Frame.hello c.hello :: k.rounds.flatMap Round.frames).map Frame.wire) ∧
    InOrder Round.version (fun r s => r.snap = s) h.published h.rounds := by
  have hconns := Task.connsInv_of_reaches hr
  have hrange : h.InRange :=
    Machine.run_preserves_of (M := hub c seed) (P := Task.InRange) (C := HubEvent.InRange)
      (fun _ _ _ he hi hs => Task.inRange_step hi he hs) hes hr
      ⟨hseed, by simp [hub, Task.conns]⟩
  refine ⟨fun k hk => ⟨k.frames.map Frame.wire, Codec.mapM_dec fun f hf => ?_, ?_⟩,
    Task.roundsInOrder_of_reaches hr⟩
  · rcases List.mem_cons.mp ((hconns k hk).frames.subset hf) with rfl | hf
    · exact Frame.deserialize_serialize (hello_fits hc)
    · obtain ⟨r, hr, hf⟩ := List.mem_flatMap.mp hf
      exact Frame.deserialize_serialize (Round.frames_fit (hrange.rounds k hk r hr) f hf)
  · exact (hconns k hk).frames.map _

theorem rounds_decode_twoRounds :
    ∃ h, (hub lab .default).Reaches twoRounds h ∧ h.conns.map (fun k => k.frames.length) = [4] ∧
      ∀ k ∈ h.conns, ∃ fs, (k.frames.map Frame.serialize).mapM Frame.deserialize = some fs := by
  have hrun : ∃ h, (hub lab .default).Reaches twoRounds h ∧
      h.conns.map (fun k => k.frames.length) = [4] := by
    with_unfolding_all exact ⟨_, rfl, rfl⟩
  obtain ⟨h, hr, hl⟩ := hrun
  have h64 : 0 < 2 ^ 64 := Nat.two_pow_pos 64
  have hdefault : Snapshot.default.InRange :=
    ⟨Nat.two_pow_pos 32, ⟨⟨⟨⟨trivial, h64⟩, h64⟩, h64⟩, h64⟩, ⟨⟨trivial, h64⟩, h64⟩, nofun, nofun,
      nofun⟩
  have hinit : ∀ p ∈ [(⟨1, "init", "root", .fin 4⟩ : Process)], p.pid < 2 ^ 32 := by decide
  have hes : ∀ e ∈ twoRounds, e.InRange := by
    simp only [twoRounds, List.forall_mem_cons, HubEvent.InRange, IsTs]
    refine ⟨trivial, trivial, by decide, trivial, { hdefault with processes := hinit }, ?_⟩
    exact ⟨by decide, by decide, trivial, trivial, by decide, List.forall_mem_nil _⟩
  have hc : lab.InRange := by
    intro n hn
    cases hn
    decide
  refine ⟨h, hr, hl, fun k hk => ?_⟩
  obtain ⟨fs, hfs, -⟩ := (rounds_decode hr hc hdefault hes).1 k hk
  exact ⟨fs, hfs⟩

/-! ## The first frame, as a hub may write it -/

/-- `kvs` lays out some entries: in any order, among entries under other names, and possibly without
those that are `null`. -/
def LaysOut (entries kvs : List (String × Json)) : Prop :=
  ∃ keep : String → Bool, (∀ kv ∈ entries, keep kv.1 = false → kv.2 = .null) ∧
    Json.Holds (entries.map Prod.fst) entries keep kvs

namespace LaysOut

variable {entries kvs : List (String × Json)}

theorem field (h : LaysOut entries kvs) (hn : (entries.map Prod.fst).Nodup) {name : String}
    {j : Json} (hm : (name, j) ∈ entries) (hne : name ≠ "t") {α : Type} (d : Json → Option α) :
    Json.field (kvs.filter (·.1 != "t")) name (Json.asOption d) (some none) =
      Json.asOption d j := by
  obtain ⟨keep, hnull, hk⟩ := h
  have hrest : Json.field (kvs.filter (·.1 != "t")) name (Json.asOption d) (some none) =
      Json.field kvs name (Json.asOption d) (some none) := by
    have hl := Json.lookup_filter (p := (· != "t")) (by simpa using hne) kvs
    rw [Json.field, Json.field, hl]
  rw [hrest, hk.field hn (List.mem_map_of_mem hm) hm]
  split
  · rfl
  · next hkeep =>
    rw [show j = .null from hnull _ hm (by simpa using hkeep)]
    rfl

theorem lookup (h : LaysOut entries kvs) (hn : (entries.map Prod.fst).Nodup) {tag : String}
    (hm : ("t", .str tag) ∈ entries) : Json.lookup kvs "t" = some (some (.str tag)) := by
  obtain ⟨keep, hnull, hk⟩ := h
  have hkeep : keep "t" = true := by
    by_contra hno
    cases hnull _ hm (by simpa using hno)
  have hf := hk.field hn (List.mem_map_of_mem hm) hm some none
  rw [if_pos hkeep, Json.field] at hf
  cases hl : Json.lookup kvs "t" with
  | none => rw [hl] at hf; cases hf
  | some o =>
    rw [hl] at hf
    cases o with
    | none => cases hf
    | some j => rw [Option.some.inj hf]

end LaysOut

/-- The entries of a welcome; the interval is any number, of seconds. -/
def welcomeEntries (hostId : Option ℤ) (interval : Option JsonNumber) : List (String × Json) :=
  [("t", .str "welcome"), ("host_id", .ofOption Json.ofInt hostId),
    ("interval", .ofOption .num interval)]

def errorEntries (code message : Option String) : List (String × Json) :=
  [("t", .str "error"), ("code", .ofOption .str code), ("message", .ofOption .str message)]

theorem deserialize_welcome {hostId : Option ℤ} {interval : Option JsonNumber}
    {kvs : List (String × Json)} (h : LaysOut (welcomeEntries hostId interval) kvs)
    (hid : ∀ z, hostId = some z → -2 ^ 63 ≤ z ∧ z < 2 ^ 63) :
    HubFrame.deserialize (.obj kvs) = some (.welcome hostId (interval.map JsonNumber.asF64)) := by
  have hn : ((welcomeEntries hostId interval).map Prod.fst).Nodup := by simp [welcomeEntries]
  have hhost := h.field hn (.tail _ (.head _)) (by decide) Json.asI64
  have hival := h.field hn (.tail _ (.tail _ (.head _))) (by decide) Json.asF64
  have hhost' : Json.asOption Json.asI64 (.ofOption Json.ofInt hostId) = some hostId := by
    cases hostId with
    | none => rfl
    | some z =>
      have hz := Json.asI64_ofInt (hid z rfl).1 (hid z rfl).2
      have hne : Json.ofInt z ≠ .null := fun h0 => by rw [h0] at hz; cases hz
      unfold Json.asOption Json.ofOption
      split
      · next h0 => exact absurd h0 hne
      · rw [hz]; rfl
  have hival' : Json.asOption Json.asF64 (.ofOption .num interval) =
      some (interval.map JsonNumber.asF64) := by
    cases interval <;> rfl
  simp only [HubFrame.deserialize, h.lookup hn (.head _), HubFrame.ofEntries, hhost, hival, hhost',
    hival', Option.bind_eq_bind, Option.bind_some]

theorem deserialize_error {code message : Option String} {kvs : List (String × Json)}
    (h : LaysOut (errorEntries code message) kvs) :
    HubFrame.deserialize (.obj kvs) = some (.error code message) := by
  have hn : ((errorEntries code message).map Prod.fst).Nodup := by simp [errorEntries]
  have hcode := h.field hn (.tail _ (.head _)) (by decide) Json.asStr
  have hmsg := h.field hn (.tail _ (.tail _ (.head _))) (by decide) Json.asStr
  have hstr : ∀ o : Option String, Json.asOption Json.asStr (.ofOption .str o) = some o := by
    intro o
    cases o <;> rfl
  simp only [HubFrame.deserialize, h.lookup hn (.head _), HubFrame.ofEntries, hcode, hmsg, hstr,
    Option.bind_eq_bind, Option.bind_some]

/-- A tag that is neither of the two. -/
theorem deserialize_other {tag : String} {kvs : List (String × Json)}
    (ht : Json.lookup kvs "t" = some (some (.str tag))) (hw : tag ≠ "welcome")
    (he : tag ≠ "error") :
    HubFrame.deserialize (.obj kvs) = some .ping ∨ HubFrame.deserialize (.obj kvs) = some .pong ∨
      HubFrame.deserialize (.obj kvs) = some .unknown := by
  simp only [HubFrame.deserialize, ht, HubFrame.ofEntries]
  split
  · exact absurd rfl hw
  · exact absurd rfl he
  · exact .inl rfl
  · exact .inr (.inl rfl)
  · exact .inr (.inr rfl)

/-- **The layout of the first frame is free.** A welcome or a refusal is read for what it says in
every layout; an object with any other tag is unexpected, and one whose tag is repeated is no frame
at all. -/
theorem first_frame_read (c : Client) {s : String} {kvs : List (String × Json)}
    (hp : c.serde.parse s = .ok (.obj kvs)) :
    (∀ hostId interval, (∀ z, hostId = some z → -2 ^ 63 ≤ z ∧ z < 2 ^ 63) →
      LaysOut (welcomeEntries hostId interval) kvs →
        c.awaitWelcome (some (.ok (.text s))) = c.pushInterval (interval.map JsonNumber.asF64)) ∧
    (∀ code message, LaysOut (errorEntries code message) kvs →
      c.awaitWelcome (some (.ok (.text s))) =
        .err ("hub error: " ++ code.getD "" ++ " " ++ message.getD "")) ∧
    (∀ tag, Json.lookup kvs "t" = some (some (.str tag)) → tag ≠ "welcome" → tag ≠ "error" →
      c.awaitWelcome (some (.ok (.text s))) = .err "hub: unexpected first frame") ∧
    (2 ≤ (kvs.map Prod.fst).count "t" →
      c.awaitWelcome (some (.ok (.text s))) = .err (c.serde.reject s)) := by
  refine ⟨fun hostId interval hid h => ?_, fun code message h => ?_, fun tag ht hw he => ?_,
    fun h => ?_⟩
  · simp only [Client.awaitWelcome, Serde.fromStr, hp, deserialize_welcome h hid]
  · simp only [Client.awaitWelcome, Serde.fromStr, hp, deserialize_error h]
  · rcases deserialize_other ht hw he with h | h | h <;>
      simp only [Client.awaitWelcome, Serde.fromStr, hp, h]
  · have hnone : HubFrame.deserialize (.obj kvs) = none := by
      simp only [HubFrame.deserialize, Json.lookup_eq_none_iff.mpr h]
    simp only [Client.awaitWelcome, Serde.fromStr, hp, hnone]

theorem first_frame_read_shortWelcome :
    LaysOut (welcomeEntries (some 1) (some (.posInt 5)))
      [("t", .str "welcome"), ("host_id", .num (.posInt 1)), ("interval", .num (.posInt 5))] ∧
    lab.awaitWelcome (some (.ok (.text shortWelcome))) =
      lab.pushInterval (some (JsonNumber.posInt 5).asF64) := by
  have hlay : LaysOut (welcomeEntries (some 1) (some (.posInt 5)))
      [("t", .str "welcome"), ("host_id", .num (.posInt 1)), ("interval", .num (.posInt 5))] :=
    ⟨fun _ => true, fun _ _ h => (by cases h), .refl _⟩
  have hid : ∀ z, some (1 : ℤ) = some z → -2 ^ 63 ≤ z ∧ z < 2 ^ 63 := by
    intro z hz
    cases hz
    decide
  exact ⟨hlay, (first_frame_read lab rfl).1 (some 1) (some (.posInt 5)) hid hlay⟩

end Vigil.Hub

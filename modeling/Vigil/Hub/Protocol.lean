import Vigil.Lib.Json

/-!
# The hub's wire format

The frames the collector sends and the frames it understands. Frames are kept
as records; the text on the wire is what `serde_json` makes of them.

`HubFrame.deserialize` is the decoder that `#[serde(tag = "t")]` derives: the
tag is looked up first, a struct variant is then decoded from the remaining
entries, and a tag that names no variant gives `Unknown`. Serde also accepts
the array form of an internally tagged enum, with the tag as first element.
-/

namespace Vigil.Hub

open Vigil.Lib

def protocolVersion : Nat := 1

def agentVersion : String := "0.1.1"

structure HostInfo where
  name : String
  hostname : String
  os : String
  arch : String
  agentVersion : String
  cpuCores : Option Nat
  tags : List String
  deriving DecidableEq

structure Hello where
  v : Nat
  t : String
  key : String
  host : HostInfo
  deriving DecidableEq

structure Samples where
  v : Nat
  t : String
  ts : Int
  metrics : List (String × F64)
  deriving DecidableEq

structure ProcessItem where
  pid : Nat
  name : String
  username : String
  memBytes : Nat
  deriving DecidableEq

structure Processes where
  v : Nat
  t : String
  ts : Int
  metric : String
  items : List ProcessItem
  deriving DecidableEq

structure ProcessCpuItem where
  pid : Nat
  name : String
  username : String
  cpuPct : F64
  deriving DecidableEq

structure ProcessesCpu where
  v : Nat
  t : String
  ts : Int
  items : List ProcessCpuItem
  deriving DecidableEq

/-- A text frame the collector writes. -/
inductive Frame where
  | hello (h : Hello)
  | samples (s : Samples)
  | processes (p : Processes)
  | processesCpu (p : ProcessesCpu)
  deriving DecidableEq

/-- A text frame the hub sends. -/
inductive HubFrame where
  | welcome (hostId : Option Int) (interval : Option ℚ)
  | error (code message : Option String)
  | ping
  | pong
  | unknown

namespace HubFrame

/-- The variant named by the tag, from the entries of an object. -/
def ofEntries (tag : String) (kvs : List (String × Json)) : Option HubFrame :=
  match tag with
  | "welcome" => do
    let hostId ← Json.field kvs "host_id" (Json.asOption Json.asI64) (some none)
    let interval ← Json.field kvs "interval" (Json.asOption Json.asF64) (some none)
    some (.welcome hostId interval)
  | "error" => do
    let code ← Json.field kvs "code" (Json.asOption Json.asStr) (some none)
    let message ← Json.field kvs "message" (Json.asOption Json.asStr) (some none)
    some (.error code message)
  | "ping" => some .ping
  | "pong" => some .pong
  | _ => some .unknown

/-- The variant named by the tag, from the elements of an array: the fields in order of
declaration, and no further element. -/
def ofElems (tag : String) (js : List Json) : Option HubFrame :=
  match tag with
  | "welcome" => do
    let hostId ← Json.elem js 0 (Json.asOption Json.asI64) none
    let interval ← Json.elem js 1 (Json.asOption Json.asF64) (some none)
    if js.length ≤ 2 then some (.welcome hostId interval) else none
  | "error" => do
    let code ← Json.elem js 0 (Json.asOption Json.asStr) (some none)
    let message ← Json.elem js 1 (Json.asOption Json.asStr) (some none)
    if js.length ≤ 2 then some (.error code message) else none
  | "ping" => if js.isEmpty then some .ping else none
  | "pong" => if js.isEmpty then some .pong else none
  | _ => if js.isEmpty then some .unknown else none

def deserialize : Json → Option HubFrame
  | .obj kvs =>
    match Json.lookup kvs "t" with
    | some (some (.str tag)) => ofEntries tag (kvs.filter (·.1 != "t"))
    | _ => none
  | .arr (.str tag :: js) => ofElems tag js
  | _ => none

end HubFrame

end Vigil.Hub

import Vigil.Lib.Json

/-!
# Settings

`Settings` is what `settings.json` decodes to, with serde's defaults for missing
keys. `readSettings` runs on a `Home`, the two settings directories, and on the
`Faults` of its file operations, and returns the settings with the home
directory it leaves behind.

`SettingsSerde` stands for `serde_json`: the parser up to JSON values, and the
pretty printer.
-/

namespace Vigil

open Vigil.Lib

def defaultAddress : String := "localhost"
def defaultPort : Nat := 4500
def defaultMaxWsConnections : Nat := 20
def defaultWsPushInterval : ℚ := 1
def defaultProbeTimeout : ℚ := 5
def defaultLogLevel : String := "INFO"
def defaultLogEnabled : Bool := true

structure Probe where
  name : String
  url : String

def defaultProbes : List Probe :=
  [⟨"edcs.app", "https://edcs.app"⟩, ⟨"api.edcs.app", "https://api.edcs.app"⟩]

structure Settings where
  loggingEnabled : Bool
  logLevel : String
  address : String
  portNumber : Nat
  maxWsConnections : Nat
  wsPushInterval : ℚ
  probes : List Probe
  probeTimeout : ℚ

def Settings.default : Settings where
  loggingEnabled := defaultLogEnabled
  logLevel := defaultLogLevel
  address := defaultAddress
  portNumber := defaultPort
  maxWsConnections := defaultMaxWsConnections
  wsPushInterval := defaultWsPushInterval
  probes := defaultProbes
  probeTimeout := defaultProbeTimeout

/-! ## Decoding -/

/-- A struct is written as an object or as the array of its fields. -/
def Probe.deserialize : Json → Option Probe
  | .obj kvs => do
    let name ← Json.field kvs "name" Json.asStr none
    let url ← Json.field kvs "url" Json.asStr none
    some ⟨name, url⟩
  | .arr js => do
    let name ← Json.elem js 0 Json.asStr none
    let url ← Json.elem js 1 Json.asStr none
    if js.length ≤ 2 then some ⟨name, url⟩ else none
  | _ => none

namespace Settings

/-- Decode the fields, each through `get name index decoder default`. -/
def ofFields (get : {α : Type} → String → Nat → (Json → Option α) → α → Option α) :
    Option Settings := do
  let loggingEnabled ← get "logging_enabled" 0 Json.asBool defaultLogEnabled
  let logLevel ← get "log_level" 1 Json.asStr defaultLogLevel
  let address ← get "address" 2 Json.asStr defaultAddress
  let portNumber ← get "port_number" 3 (Json.asUint 16) defaultPort
  let maxWsConnections ← get "max_ws_connections" 4 (Json.asUint 64) defaultMaxWsConnections
  let wsPushInterval ← get "ws_push_interval" 5 Json.asF64 defaultWsPushInterval
  let probes ← get "probes" 6 (Json.asList Probe.deserialize) defaultProbes
  let probeTimeout ← get "probe_timeout" 7 Json.asF64 defaultProbeTimeout
  some { loggingEnabled, logLevel, address, portNumber, maxWsConnections, wsPushInterval, probes,
         probeTimeout }

def deserialize : Json → Option Settings
  | .obj kvs => ofFields fun name _ d dflt => Json.field kvs name d (some dflt)
  | .arr js =>
    if js.length ≤ 8 then ofFields fun _ i d dflt => Json.elem js i d (some dflt) else none
  | _ => none

end Settings

structure SettingsSerde where
  parse : String → Except String Json
  pretty : Settings → Except String String

/-- `serde_json::from_str::<Settings>`, the error dropped. -/
def SettingsSerde.fromStr (j : SettingsSerde) (s : String) : Option Settings :=
  match j.parse s with
  | .error _ => none
  | .ok v => Settings.deserialize v

/-! ## The settings file -/

/-- What reading an existing `settings.json` yields. -/
inductive SettingsFile where
  | text (s : String)
  /-- no permission, no regular file, or no UTF-8 -/
  | unreadable
  deriving DecidableEq

/-- What stands at the path of a settings directory. -/
inductive Entry where
  | file
  | dir (settings : Option SettingsFile)
  deriving DecidableEq

/-- The home directory: `~/.vigil-collector` and `~/.psmonitor`. -/
structure Home where
  settingsDir : Option Entry
  legacySettingsDir : Option Entry
  deriving DecidableEq

/-- How `fs::write` of the defaults goes. -/
inductive WriteOutcome where
  | written
  /-- it fails and leaves no file, or one with some part of the text -/
  | failed (left : Option String)

/-- Which file operations of one `read_settings` fail. -/
structure Faults where
  renameFails : Bool
  createDirFails : Bool
  write : WriteOutcome

def Faults.none : Faults := ⟨false, false, .written⟩

namespace Home

/-- `settings_file()`, `none` where the path does not exist. -/
def settingsFile (h : Home) : Option SettingsFile :=
  match h.settingsDir with
  | some (.dir f) => f
  | _ => none

def migrateLegacy (h : Home) (f : Faults) : Home :=
  if h.settingsDir.isSome then h
  else
    match h.legacySettingsDir with
    | some (.dir s) => if f.renameFails then h else ⟨some (.dir s), none⟩
    | _ => h

/-- `fs::create_dir_all` on the settings directory, `none` when it fails. -/
def createDirAll (h : Home) (f : Faults) : Option Home :=
  match h.settingsDir with
  | some (.dir _) => some h
  | some .file => none
  | none => if f.createDirFails then none else some { h with settingsDir := some (.dir none) }

/-- `fs::write` of `s` to `settings.json`. -/
def writeSettings (h : Home) (f : Faults) (s : String) : Home :=
  match f.write with
  | .written => { h with settingsDir := some (.dir (some (.text s))) }
  | .failed left => { h with settingsDir := some (.dir (left.map .text)) }

end Home

def readSettings (j : SettingsSerde) (h : Home) (f : Faults) : Settings × Home :=
  let h := h.migrateLegacy f
  match h.settingsFile with
  | none =>
    match h.createDirAll f with
    | none => (.default, h)
    | some h =>
      match j.pretty .default with
      | .ok s => (.default, h.writeSettings f s)
      | .error _ => (.default, h)
  | some (.text s) => ((j.fromStr s).getD .default, h)
  | some .unreadable => (.default, h)

/-- The text `read_settings` decodes: none when there is no file to read. -/
def Home.text (h : Home) (f : Faults) : Option String :=
  match (h.migrateLegacy f).settingsFile with
  | some (.text s) => some s
  | _ => none

/-- `read_settings` always returns settings: those of its text, or the defaults. -/
theorem readSettings_fst (j : SettingsSerde) (h : Home) (f : Faults) :
    (readSettings j h f).1 = ((h.text f).bind j.fromStr).getD .default := by
  unfold readSettings Home.text
  generalize h.migrateLegacy f = h
  dsimp only
  cases h.settingsFile with
  | none =>
    cases h.createDirAll f with
    | none => rfl
    | some h' => cases j.pretty .default <;> rfl
  | some file => cases file <;> rfl

end Vigil

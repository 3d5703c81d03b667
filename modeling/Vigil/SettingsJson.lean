import Vigil.Config
import Vigil.Lib.Codec

/-!
# What a settings file stands for

The serialize half of the derives on `Settings` and `Probe`, and the contract of
the decoder. A settings file may have any of the eight keys, in any order, among
keys of other programs: each key it has is taken from it and each one it lacks
from the defaults (`settings_overlay`). A key that is written twice is an error.

`defaultText` is the file that a first run writes.
-/

namespace Vigil

open Vigil.Lib

/-! ## Encoding -/

namespace Probe

def entries (p : Probe) : List (String × Json) := [("name", .str p.name), ("url", .str p.url)]

def serialize (p : Probe) : Json := .obj p.entries

theorem deserialize_serialize (p : Probe) : deserialize p.serialize = some p := by
  have hn : (p.entries.map Prod.fst).Nodup := show ["name", "url"].Nodup by decide
  have hname := Json.field_of_mem hn (.head _) Json.asStr none
  have hurl := Json.field_of_mem hn (.tail _ (.head _)) Json.asStr none
  show (do
    let name ← Json.field p.entries "name" Json.asStr none
    let url ← Json.field p.entries "url" Json.asStr none
    some (⟨name, url⟩ : Probe)) = some p
  rw [hname, hurl]
  rfl

end Probe

namespace Settings

/-- The keys, in the order of the struct. -/
def names : List String :=
  ["logging_enabled", "log_level", "address", "port_number", "max_ws_connections",
    "ws_push_interval", "probes", "probe_timeout"]

def entries (s : Settings) : List (String × Json) :=
  [("logging_enabled", .bool s.loggingEnabled),
    ("log_level", .str s.logLevel),
    ("address", .str s.address),
    ("port_number", .ofNat s.portNumber),
    ("max_ws_connections", .ofNat s.maxWsConnections),
    ("ws_push_interval", .num (.float s.wsPushInterval)),
    ("probes", .ofList Probe.serialize s.probes),
    ("probe_timeout", .num (.float s.probeTimeout))]

def serialize (s : Settings) : Json := .obj s.entries

/-- The integers are in the range of their types. -/
structure Fits (s : Settings) : Prop where
  portNumber : s.portNumber < 2 ^ 16
  maxWsConnections : s.maxWsConnections < 2 ^ 64

/-- The settings `s` where `keep` keeps a key, and the defaults elsewhere. -/
def overlay (s : Settings) (keep : String → Bool) : Settings where
  loggingEnabled := if keep "logging_enabled" then s.loggingEnabled else defaultLogEnabled
  logLevel := if keep "log_level" then s.logLevel else defaultLogLevel
  address := if keep "address" then s.address else defaultAddress
  portNumber := if keep "port_number" then s.portNumber else defaultPort
  maxWsConnections :=
    if keep "max_ws_connections" then s.maxWsConnections else defaultMaxWsConnections
  wsPushInterval := if keep "ws_push_interval" then s.wsPushInterval else defaultWsPushInterval
  probes := if keep "probes" then s.probes else defaultProbes
  probeTimeout := if keep "probe_timeout" then s.probeTimeout else defaultProbeTimeout

@[simp] theorem overlay_all (s : Settings) : s.overlay (fun _ => true) = s := rfl

@[simp] theorem overlay_none (s : Settings) : s.overlay (fun _ => false) = .default := rfl

theorem entries_fst (s : Settings) : s.entries.map Prod.fst = names := rfl

theorem nodup_names : names.Nodup := by decide

/-- A name is among the first `k` when its place is. -/
theorem contains_take_names {i k : Nat} {name : String} (h : names[i]? = some name) :
    (names.take k).contains name = decide (i < k) := by
  obtain ⟨hi, rfl⟩ := List.getElem?_eq_some_iff.mp h
  rw [Bool.eq_iff_iff, List.contains_iff_mem, decide_eq_true_iff, List.mem_take_iff_getElem]
  constructor
  · rintro ⟨m, hm, he⟩
    rw [nodup_names.getElem_inj_iff] at he
    omega
  · exact fun hik => ⟨i, by omega, rfl⟩

theorem probes_dec (s : Settings) :
    Json.asList Probe.deserialize (.ofList Probe.serialize s.probes) = some s.probes := by
  have h : (s.probes.map Probe.serialize).mapM Probe.deserialize = some (s.probes.map id) :=
    Codec.mapM_dec fun p _ => p.deserialize_serialize
  rwa [List.map_id] at h

/-- A decoder for all fields that finds each key it keeps, and no other. -/
theorem ofFields_overlay {s : Settings} (hs : s.Fits) {keep : String → Bool}
    {get : {α : Type} → String → Nat → (Json → Option α) → α → Option α}
    (h : ∀ {α : Type} (i : Nat) (name : String) (j : Json) (d : Json → Option α) (dflt : α),
      s.entries[i]? = some (name, j) → get name i d dflt = if keep name then d j else some dflt) :
    ofFields get = some (s.overlay keep) := by
  have hport : Json.asUint 16 (.ofNat s.portNumber) = some s.portNumber :=
    Json.asUint_ofNat (by norm_num) hs.portNumber
  have hmax : Json.asUint 64 (.ofNat s.maxWsConnections) = some s.maxWsConnections :=
    Json.asUint_ofNat (by norm_num) hs.maxWsConnections
  unfold ofFields
  dsimp only
  rw [h 0 "logging_enabled" _ _ _ rfl, h 1 "log_level" _ _ _ rfl, h 2 "address" _ _ _ rfl,
    h 3 "port_number" _ _ _ rfl, h 4 "max_ws_connections" _ _ _ rfl,
    h 5 "ws_push_interval" _ _ _ rfl, h 6 "probes" _ _ _ rfl, h 7 "probe_timeout" _ _ _ rfl]
  rw [hport, hmax, s.probes_dec]
  simp only [Json.asBool, Json.asStr, Json.asF64_float, ← apply_ite some]
  rfl

end Settings

/-- A decoder for all fields fails when it fails on one of them. -/
theorem Settings.ofFields_eq_none
    {get : {α : Type} → String → Nat → (Json → Option α) → α → Option α} {name : String}
    (hm : name ∈ names)
    (h : ∀ {α : Type} (i : Nat) (d : Json → Option α) (dflt : α), get name i d dflt = none) :
    ofFields get = none := by
  unfold ofFields
  dsimp only
  simp only [names, List.mem_cons, List.not_mem_nil, or_false] at hm
  rcases hm with rfl | rfl | rfl | rfl | rfl | rfl | rfl | rfl <;>
    simp only [h, Option.bind_eq_bind, Option.bind_none, Option.bind_fun_none]

/-- The object that settings are written as reads back as the settings. -/
theorem Settings.deserialize_serialize {s : Settings} (hs : s.Fits) :
    deserialize s.serialize = some s := by
  have hn : (s.entries.map Prod.fst).Nodup := s.entries_fst ▸ nodup_names
  have hall : (ofFields fun name _ d dflt => Json.field s.entries name d (some dflt)) =
      some (s.overlay fun _ => true) := by
    refine ofFields_overlay hs ?_
    exact fun i name j d dflt hi => Json.field_of_mem hn (List.mem_of_getElem? hi) d (some dflt)
  exact hall.trans (congrArg some s.overlay_all)

/-- **The contract of the settings file.** An object with some of the entries of `s`, in any order
and among any entries under other keys, decodes to `s` over the defaults; so does an array of the
first fields of `s`; an object with one of the keys twice does not decode. -/
theorem settings_overlay {s : Settings} (hs : s.Fits) :
    (∀ (keep : String → Bool) (kvs : List (String × Json)),
      Json.Holds Settings.names s.entries keep kvs →
        Settings.deserialize (.obj kvs) = some (s.overlay keep)) ∧
    (∀ k, Settings.deserialize (.arr ((s.entries.map Prod.snd).take k)) =
      some (s.overlay (Settings.names.take k).contains)) ∧
    ∀ (kvs : List (String × Json)) name, name ∈ Settings.names →
      2 ≤ (kvs.map Prod.fst).count name → Settings.deserialize (.obj kvs) = none := by
  have hn : (s.entries.map Prod.fst).Nodup := s.entries_fst ▸ Settings.nodup_names
  refine ⟨fun keep kvs h => ?_, fun k => ?_, fun kvs name hm hc => ?_⟩
  · show (Settings.ofFields fun name _ d dflt => Json.field kvs name d (some dflt)) = _
    refine Settings.ofFields_overlay hs fun i name j d dflt hi => ?_
    have hmem := List.mem_of_getElem? hi
    have hk : name ∈ Settings.names := s.entries_fst ▸ List.mem_map_of_mem hmem
    exact h.field hn hk hmem d (some dflt)
  · have hlen : ((s.entries.map Prod.snd).take k).length ≤ 8 :=
      (List.length_take_le' ..).trans (le_of_eq rfl)
    show (if _ then _ else none) = _
    rw [if_pos hlen]
    refine Settings.ofFields_overlay hs fun i name j d dflt hi => ?_
    have hname : Settings.names[i]? = some name := by
      rw [← s.entries_fst, List.getElem?_map, hi]
      rfl
    have hkeep : (Settings.names.take k).contains name = decide (i < k) :=
      Settings.contains_take_names hname
    rw [hkeep, Json.elem, List.getElem?_take, List.getElem?_map, hi]
    by_cases hik : i < k <;> simp [hik]
  · show (Settings.ofFields fun name _ d dflt => Json.field kvs name d (some dflt)) = _
    refine Settings.ofFields_eq_none hm fun i d dflt => ?_
    rw [Json.field, Json.lookup_eq_none_iff.mpr hc]
    rfl

/-- A file with a port, a log level and a key of another program. -/
theorem settings_overlay_port :
    Settings.deserialize (.obj [("port_number", .ofNat 9000), ("theme", .str "dark"),
      ("log_level", .str "DEBUG")]) =
      some { Settings.default with portNumber := 9000, logLevel := "DEBUG" } := by
  have hs : ({ Settings.default with portNumber := 9000, logLevel := "DEBUG" } : Settings).Fits :=
    ⟨by decide, by decide⟩
  exact (settings_overlay hs).1 (fun k => k = "port_number" || k = "log_level") _ (.swap _ _ _)

/-! ## The text of the defaults -/

theorem Settings.default_fits : Settings.default.Fits := ⟨by decide, by decide⟩

/-- The settings file of a first run, after its first line. -/
def defaultLines : String :=
  "  \"logging_enabled\": true,\n  \"log_level\": \"INFO\",\n" ++
    "  \"address\": \"localhost\",\n  \"port_number\": 4500,\n" ++
    "  \"max_ws_connections\": 20,\n  \"ws_push_interval\": 1.0,\n  \"probes\": [\n" ++
    "    \x7b\n      \"name\": \"edcs.app\",\n      \"url\": \"https://edcs.app\"\n    \x7d,\n" ++
    "    \x7b\n      \"name\": \"api.edcs.app\",\n" ++
    "      \"url\": \"https://api.edcs.app\"\n    \x7d\n  ],\n  \"probe_timeout\": 5.0\n\x7d"

def defaultText : String := "\x7b\n" ++ defaultLines

/-- `serde_json` on the text of the defaults and on what is cut off before its end. -/
def defaultSerde (text : String) : SettingsSerde where
  parse s :=
    if s = text then .ok Settings.default.serialize else .error "EOF while parsing an object"
  pretty _ := .ok text

/-- `serde_json` on one more text. -/
def SettingsSerde.reading (j : SettingsSerde) (text : String) (v : Json) : SettingsSerde where
  parse s := if s = text then .ok v else j.parse s
  pretty := j.pretty

theorem defaultSerde_parse (text : String) :
    (defaultSerde text).parse text = .ok Settings.default.serialize := if_pos rfl

theorem SettingsSerde.reading_parse_of_ne (j : SettingsSerde) {s text : String} (v : Json)
    (h : s ≠ text) : (j.reading text v).parse s = j.parse s := if_neg h

end Vigil

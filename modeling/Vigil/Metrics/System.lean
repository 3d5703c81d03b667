import Vigil.Lib.Text
import Vigil.Metrics.Host

/-!
# CPU, memory and platform

The collectors of `cpu.rs`, `mem.rs` and `platform.rs`. `Statics` are the
process-wide `OnceLock`s: what is initialised once and never read again.
-/

namespace Vigil.Metrics

open Vigil.Lib

/-! ## CPU -/

def cpuTempLabelPriority : List String := ["package", "tctl", "tdie", "cpu"]

def cpuTempThermalTypes : List String :=
  ["x86_pkg_temp", "cpu-thermal", "cpu_thermal", "soc_thermal"]

/-- The label contains one of the entries of the priority list. -/
def Component.isLabelled (c : Component) : Bool :=
  cpuTempLabelPriority.any fun needle => Text.contains needle (Text.toAsciiLowercase c.label)

/-- The loop of `read_via_components`: `labelled` and `any_numeric` at its end. -/
def componentLoop : Option ℚ → List Component → Option ℚ × Option ℚ
  | anyNumeric, [] => (none, anyNumeric)
  | anyNumeric, c :: cs =>
    match c.temperature with
    | .fin temp =>
      let anyNumeric := anyNumeric.or (some temp)
      if c.isLabelled then (some temp, anyNumeric) else componentLoop anyNumeric cs
    | _ => componentLoop anyNumeric cs

def readViaComponents (components : List Component) : Option ℚ :=
  let (labelled, anyNumeric) := componentLoop none components
  (labelled.or anyNumeric).map round1

/-- The temperature of a thermal zone, if it is a CPU's and can be read. -/
def ThermalZone.read (z : ThermalZone) : Option ℚ := do
  if !Text.startsWith "thermal_zone" z.name then none
  let zoneType ← z.zoneType
  if !cpuTempThermalTypes.contains (String.ofList (Text.trim zoneType.toList)) then none
  let raw ← z.temp
  let milli ← Text.parseI64 (Text.trim raw.toList)
  some (round1 (milli / 1000))

def readViaThermalZones (r : Reading) : Option ℚ := do
  let entries ← r.thermalZones
  entries.findSome? ThermalZone.read

def readCpuTemp (r : Reading) (components : List Component) : ℚ :=
  match readViaComponents components with
  | some t => t
  | none => (readViaThermalZones r).getD 0

def collectCpu (r : Reading) (sys : System) (components : List Component) (cores : Nat) : Cpu :=
  let usage := if sys.frequencies.isEmpty then .fin 0 else sys.globalCpuUsage.map round2
  let freqs : List ℚ := (sys.frequencies.map fun f => (f : ℚ)).filter (0 < ·)
  let freq := if freqs.isEmpty then 0 else round2 (freqs.sum / freqs.length)
  { usage, temp := .fin (readCpuTemp r components), freq := .fin freq, cores, load := r.loadAvg }

/-! ## Memory -/

def collectMem (sys : System) : Mem :=
  let total := sys.totalMemory
  let available := sys.availableMemory
  let used := total - available
  let percent := if 0 < total then round1 (used / total * 100) else 0
  ⟨.fin (bytesToGib total), .fin (bytesToGib used), .fin (bytesToGib available), .fin percent⟩

/-! ## Platform -/

structure Statics where
  user : Option String
  distro : Option String
  pssSupported : Option Bool
  deriving DecidableEq

def Statics.uninit : Statics := ⟨none, none, none⟩

/-- Every static that is initialised keeps its value. -/
def Statics.Extends (s t : Statics) : Prop :=
  s.user.all (t.user = some ·) ∧ s.distro.all (t.distro = some ·) ∧
    s.pssSupported.all (t.pssSupported = some ·)

instance (s t : Statics) : Decidable (s.Extends t) := inferInstanceAs (Decidable (_ ∧ _ ∧ _))

/-- `OnceLock::get_or_init`. -/
def getOrInit {α : Type} (slot : Option α) (init : α) : α × Option α :=
  (slot.getD init, some (slot.getD init))

/-- The last `PRETTY_NAME=` and the last other `NAME=` of an `os-release`, unquoted. -/
def osReleaseNames (raw : String) : Option String × Option String :=
  (Text.lines raw.toList).foldl (fun (pretty, name) line =>
    match Text.stripPrefix "PRETTY_NAME=" line with
    | some v => (some (String.ofList (Text.trimMatches '"' v)), name)
    | none =>
      match Text.stripPrefix "NAME=" line with
      | some v => (pretty, some (String.ofList (Text.trimMatches '"' v)))
      | none => (pretty, name)) (none, none)

/-- The initialiser of `distro`. -/
def detectDistro (r : Reading) : String :=
  let names := (r.osRelease.map osReleaseNames).getD (none, none)
  (names.1.or names.2).getD (r.systemName.getD "unknown")

def kernel (r : Reading) : String := r.kernelVersion.getD ""

/-- `"3 hrs"`, with the singular for one. -/
def uptimePart (n : Nat) (unit : String) : List String :=
  if 0 < n then [toString n ++ " " ++ unit ++ (if n ≠ 1 then "s" else "")] else []

def formatUptime (total : Nat) : String :=
  if total = 0 then ""
  else
    let days := total / 86400
    let rem := total % 86400
    let hours := rem / 3600
    let rem := rem % 3600
    let minutes := rem / 60
    let seconds := rem % 60
    Text.join ", "
      (uptimePart days "day" ++ uptimePart hours "hr" ++ uptimePart minutes "min" ++
        uptimePart seconds "sec")

def uptimeString (r : Reading) : String := formatUptime r.uptime

def collectPlatform (r : Reading) (s : Statics) : PlatformInfo × Statics :=
  let (distro, slot) := getOrInit s.distro (detectDistro r)
  (⟨distro, kernel r, uptimeString r⟩, { s with distro := slot })

def collectUser (r : Reading) (s : Statics) : String × Statics :=
  let (user, slot) := getOrInit s.user r.username
  (user, { s with user := slot })

end Vigil.Metrics

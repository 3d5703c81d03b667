import Vigil.Hub.Session
import Vigil.Metrics.System

/-!
# The two readers of `/etc/os-release`

The hub's hello frame and `/system` both name the operating system by the
`PRETTY_NAME=` of `/etc/os-release`, else its `NAME=`. When a key is repeated
`detectOs` takes the first line and `osReleaseNames` the last one, which is the
one that counts in such a file.
-/

namespace Vigil.Hub

open Vigil.Lib Vigil.Metrics

/-- The line gives a value to the key. -/
def Assigns (key : String) (line : List Char) : Prop := (Text.stripPrefix key line).isSome = true

instance (key : String) (line : List Char) : Decidable (Assigns key line) :=
  inferInstanceAs (Decidable (_ = true))

/-- The values a text gives to a key, in order and without their quotes. -/
def osReleaseValues (key raw : String) : List String :=
  (Text.lines raw.toList).filterMap fun line =>
    (Text.stripPrefix key line).map fun v => String.ofList (Text.trimMatches '"' v)

def osNames (raw : String) : List String :=
  if osReleaseValues "PRETTY_NAME=" raw = [] then osReleaseValues "NAME=" raw
  else osReleaseValues "PRETTY_NAME=" raw

theorem osReleaseValues_eq_nil_iff {key raw : String} :
    osReleaseValues key raw = [] ↔ ∀ line ∈ Text.lines raw.toList, ¬ Assigns key line := by
  simp [osReleaseValues, Assigns]

theorem osNames_ne_nil {raw : String} (h : ∃ line ∈ Text.lines raw.toList,
    Assigns "PRETTY_NAME=" line ∨ Assigns "NAME=" line) : osNames raw ≠ [] := by
  obtain ⟨line, hline, hkey⟩ := h
  unfold osNames
  split
  · next hp =>
    rw [Ne, osReleaseValues_eq_nil_iff]
    intro hn
    exact hkey.elim (osReleaseValues_eq_nil_iff.mp hp line hline) (hn line hline)
  · next hp => exact hp

/-! ## The first value -/

theorem detectOs_eq (raw : String) : detectOs (some raw) = (osNames raw).head?.getD "linux" := by
  have hfirst : ∀ key, (osReleaseValues key raw).head? =
      ((Text.lines raw.toList).findSome? (Text.stripPrefix key)).map
        fun v => String.ofList (Text.trimMatches '"' v) := by
    intro key
    rw [osReleaseValues, ← List.map_filterMap, List.head?_map, List.head?_filterMap]
  have hor : (osNames raw).head? =
      (osReleaseValues "PRETTY_NAME=" raw).head?.or (osReleaseValues "NAME=" raw).head? := by
    unfold osNames
    cases osReleaseValues "PRETTY_NAME=" raw <;> simp
  rw [hor, hfirst, hfirst, detectOs]
  cases (Text.lines raw.toList).findSome? (Text.stripPrefix "PRETTY_NAME=") with
  | some v => rfl
  | none => cases (Text.lines raw.toList).findSome? (Text.stripPrefix "NAME=") <;> rfl

/-! ## The last value -/

theorem stripPrefix_name_eq_none {line v : List Char}
    (h : Text.stripPrefix "PRETTY_NAME=" line = some v) : Text.stripPrefix "NAME=" line = none := by
  rw [Text.stripPrefix_eq_some_iff] at h
  rw [Text.stripPrefix_eq_none_iff, h]
  rintro ⟨t, ht⟩
  have hhead : 'N' = 'P' := Option.some.inj (congrArg List.head? ht)
  exact absurd hhead (by decide)

theorem osReleaseNames_eq (raw : String) : osReleaseNames raw =
    ((osReleaseValues "PRETTY_NAME=" raw).getLast?, (osReleaseValues "NAME=" raw).getLast?) := by
  unfold osReleaseNames osReleaseValues
  induction Text.lines raw.toList using List.reverseRecOn with
  | nil => rfl
  | append_singleton lines line ih =>
    rw [List.foldl_append, ih]
    cases hp : Text.stripPrefix "PRETTY_NAME=" line with
    | some v => simp [hp, stripPrefix_name_eq_none hp]
    | none => cases hn : Text.stripPrefix "NAME=" line <;> simp [hp, hn]

theorem detectDistro_eq {r : Reading} {raw : String} (h : r.osRelease = some raw) :
    detectDistro r = (osNames raw).getLast?.getD (r.systemName.getD "unknown") := by
  have hor : (osNames raw).getLast? =
      (osReleaseValues "PRETTY_NAME=" raw).getLast?.or (osReleaseValues "NAME=" raw).getLast? := by
    unfold osNames
    cases osReleaseValues "PRETTY_NAME=" raw <;> simp [List.getLast?_cons]
  rw [detectDistro, h, Option.map_some, Option.getD_some, osReleaseNames_eq, hor]

/-! ## Agreement -/

/-- **When the two names agree**: when the first and the last of the lines that decide have the
same value. The static of `distro` is unset, or was set from the same file. -/
theorem os_agree_iff {c : Client} {r : Reading} {s : Statics} {raw : String}
    (hc : c.osRelease = some raw) (hr : r.osRelease = some raw)
    (hs : ∀ d, s.distro = some d → d = detectDistro r)
    (hline : ∃ line ∈ Text.lines raw.toList,
      Assigns "PRETTY_NAME=" line ∨ Assigns "NAME=" line) :
    c.hello.host.os = (collectPlatform r s).1.distro ↔
      (osNames raw).head? = (osNames raw).getLast? := by
  have hos : c.hello.host.os = (osNames raw).head?.getD "linux" := by
    rw [← detectOs_eq, ← hc]
    rfl
  have hdistro : (collectPlatform r s).1.distro =
      (osNames raw).getLast?.getD (r.systemName.getD "unknown") := by
    rw [← detectDistro_eq hr]
    cases hd : s.distro with
    | none => simp [collectPlatform, getOrInit, hd]
    | some d => simp [collectPlatform, getOrInit, hd, hs d hd]
  have hne := osNames_ne_nil hline
  rw [hos, hdistro, List.head?_eq_some_head hne, List.getLast?_eq_some_getLast hne,
    Option.getD_some, Option.getD_some, Option.some.injEq]

/-- A client and a reading of one host, with this text in `/etc/os-release`. -/
def labOs (raw : String) : Client × Reading :=
  ({ lab with osRelease := some raw }, { Reading.quiet with osRelease := some raw })

/-- A file as distributions ship it. -/
def plainRelease : String := "NAME=\"Ubuntu\"\nID=ubuntu\nPRETTY_NAME=\"Ubuntu 24.04\"\n"

theorem os_agree_iff_plainRelease :
    (labOs plainRelease).1.hello.host.os =
      (collectPlatform (labOs plainRelease).2 .uninit).1.distro := by
  have hline : ∃ line ∈ Text.lines plainRelease.toList,
      Assigns "PRETTY_NAME=" line ∨ Assigns "NAME=" line := by
    decide +kernel
  exact (os_agree_iff rfl rfl (by simp [Statics.uninit]) hline).mpr (by decide +kernel)

/-- A file that a derived image has appended its own name to. -/
def twoNames : String := "PRETTY_NAME=\"Debian\"\nPRETTY_NAME=\"Edge Image\"\n"

theorem twoNames_disagree :
    (∃ line ∈ Text.lines twoNames.toList, Assigns "PRETTY_NAME=" line) ∧
      (labOs twoNames).1.hello.host.os = "Debian" ∧
      (collectPlatform (labOs twoNames).2 .uninit).1.distro = "Edge Image" ∧
      (labOs twoNames).1.hello.host.os ≠
        (collectPlatform (labOs twoNames).2 .uninit).1.distro := by
  have hos : (labOs twoNames).1.hello.host.os = "Debian" := by decide +kernel
  have hdistro : (collectPlatform (labOs twoNames).2 .uninit).1.distro = "Edge Image" := by
    decide +kernel
  refine ⟨by decide +kernel, hos, hdistro, ?_⟩
  rw [hos, hdistro]
  decide

end Vigil.Hub

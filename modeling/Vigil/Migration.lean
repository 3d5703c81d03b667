import Vigil.Lib.Machine
import Vigil.SettingsJson

/-!
# Migration of the legacy settings

`settingsReads j file` is a home directory that holds legacy settings and no new
ones, and the calls of `read_settings` made on it, at startup and for every
`GET /probes`. One existence test decides in each call whether there is
something to migrate and whether there is something to create, and a rename that
fails leaves it to the creation of the defaults to answer that test for good.
-/

namespace Vigil

open Vigil.Lib

/-- The home directory, and the settings that the last call returned. -/
structure SettingsReads where
  home : Home
  inForce : Option Settings

/-- A home directory with legacy settings only. -/
def Home.legacyOnly (file : SettingsFile) : Home := ⟨none, some (.dir (some file))⟩

def Home.renamed (file : SettingsFile) : Home := ⟨some (.dir (some file)), none⟩

def settingsReads (j : SettingsSerde) (file : SettingsFile) : Machine SettingsReads Faults where
  init := ⟨.legacyOnly file, none⟩
  step s f :=
    let r := readSettings j s.home f
    some ⟨r.2, some r.1⟩

def SettingsFile.settings (j : SettingsSerde) : SettingsFile → Settings
  | .text s => (j.fromStr s).getD .default
  | .unreadable => .default

namespace SettingsReads

/-- The legacy settings are not shadowed: they still wait for the migration, or they are migrated
and in force. -/
def Unshadowed (j : SettingsSerde) (file : SettingsFile) (s : SettingsReads) : Prop :=
  s.home = .legacyOnly file ∨
    s.home = .renamed file ∧ s.inForce = some (file.settings j)

/-- Where the new directory does not exist, a rename fails only together with its creation. -/
def FailsAsOne (s : SettingsReads) (f : Faults) : Prop :=
  s.home.settingsDir = none → f.renameFails = true → f.createDirFails = true

end SettingsReads

variable {j : SettingsSerde} {h : Home} {file : SettingsFile} {f : Faults}

/-- A call that finds a settings file reads it and changes nothing. -/
theorem readSettings_of_file (hf : h.settingsFile = some file) :
    readSettings j h f = (file.settings j, h) := by
  have hdir : h.settingsDir.isSome = true := by
    unfold Home.settingsFile at hf
    cases hd : h.settingsDir with
    | none => rw [hd] at hf; cases hf
    | some e => rfl
  unfold readSettings
  rw [Home.migrateLegacy, if_pos hdir]
  dsimp only
  rw [hf]
  cases file <;> rfl

theorem readSettings_renamed :
    readSettings j (.renamed file) f = (file.settings j, .renamed file) := readSettings_of_file rfl

theorem readSettings_legacyOnly_renames (h : f.renameFails = false) :
    readSettings j (.legacyOnly file) f = (file.settings j, .renamed file) := by
  have hm : (Home.legacyOnly file).migrateLegacy f = .renamed file := by
    simp [Home.migrateLegacy, Home.legacyOnly, Home.renamed, h]
  unfold readSettings
  rw [hm]
  cases file <;> rfl

theorem migrateLegacy_legacyOnly_fails (h : f.renameFails = true) :
    (Home.legacyOnly file).migrateLegacy f = .legacyOnly file := by
  simp [Home.migrateLegacy, Home.legacyOnly, h]

theorem readSettings_legacyOnly_waits (h : f.renameFails = true) (hc : f.createDirFails = true) :
    (readSettings j (.legacyOnly file) f).2 = .legacyOnly file := by
  unfold readSettings
  rw [migrateLegacy_legacyOnly_fails h]
  simp [Home.legacyOnly, Home.settingsFile, Home.createDirAll, hc]

theorem readSettings_legacyOnly_shadows (h : f.renameFails = true)
    (hc : f.createDirFails = false) :
    (readSettings j (.legacyOnly file) f).2 ≠ .legacyOnly file ∧
      (readSettings j (.legacyOnly file) f).2 ≠ .renamed file := by
  have hboth : (readSettings j (.legacyOnly file) f).2.settingsDir.isSome = true ∧
      (readSettings j (.legacyOnly file) f).2.legacySettingsDir.isSome = true := by
    unfold readSettings
    rw [migrateLegacy_legacyOnly_fails h]
    simp only [Home.legacyOnly, Home.settingsFile, Home.createDirAll, hc]
    cases j.pretty .default with
    | error e => exact ⟨rfl, rfl⟩
    | ok s => cases hw : f.write <;> simp [Home.writeSettings, hw]
  constructor
  · intro he
    rw [he] at hboth
    exact absurd hboth.1 Bool.false_ne_true
  · intro he
    rw [he] at hboth
    exact absurd hboth.2 Bool.false_ne_true

/-- From a state without shadowing, a call leads to another one unless the rename fails alone. -/
theorem SettingsReads.unshadowed_step {s s' : SettingsReads} (hu : s.Unshadowed j file)
    (hs : (settingsReads j file).step s f = some s') :
    s'.Unshadowed j file ↔ s.FailsAsOne f := by
  cases hs
  rcases hu with hh | ⟨hh, -⟩
  · unfold FailsAsOne
    rw [hh]
    cases hr : f.renameFails with
    | false =>
      rw [Unshadowed, readSettings_legacyOnly_renames hr]
      exact iff_of_true (.inr ⟨rfl, rfl⟩) fun _ h => by cases h
    | true =>
      cases hc : f.createDirFails with
      | true =>
        exact iff_of_true (.inl (readSettings_legacyOnly_waits hr hc)) fun _ _ => rfl
      | false =>
        obtain ⟨hnew, hold⟩ := readSettings_legacyOnly_shadows hr hc
        refine iff_of_false ?_ fun h => by simpa using h rfl
        rintro (h | ⟨h, -⟩)
        · exact hnew h
        · exact hold h
  · rw [Unshadowed, hh, readSettings_renamed]
    exact iff_of_true (.inr ⟨rfl, rfl⟩) fun h => by rw [hh] at h; cases h

/-- **When the legacy settings survive.** They are never shadowed in a run exactly when no call that
finds no new directory fails to rename the legacy one and then succeeds in creating the new one. -/
theorem legacy_unshadowed_iff {fs : List Faults} {s : SettingsReads}
    (hr : (settingsReads j file).Reaches fs s) :
    (settingsReads j file).Always (SettingsReads.Unshadowed j file) fs ↔
      (settingsReads j file).EachStep SettingsReads.FailsAsOne fs :=
  Machine.always_iff_eachStep (.inl rfl)
    (fun _ _ _ _ _ hu hs => SettingsReads.unshadowed_step hu hs) hr

/-! ## A rename that fails once -/

def legacyText : String := "\x7b\"port_number\":9000\x7d"

def portSerde : SettingsSerde :=
  (defaultSerde defaultText).reading legacyText (.obj [("port_number", .num (.posInt 9000))])

theorem portSerde_defaultText : (SettingsFile.text defaultText).settings portSerde = .default := by
  have hne : defaultText ≠ legacyText := by decide
  rw [SettingsFile.settings, SettingsSerde.fromStr, portSerde,
    SettingsSerde.reading_parse_of_ne _ _ hne, defaultSerde_parse]
  exact congrArg (·.getD .default) (Settings.deserialize_serialize Settings.default_fits)

def shadowedHome : Home :=
  ⟨some (.dir (some (.text defaultText))), some (.dir (some (.text legacyText)))⟩

/-- The rename fails at startup, and nothing fails any more after that. -/
def renameFailsOnce : List Faults := [⟨true, false, .written⟩, .none]

/-- The port of the legacy settings is lost for good. -/
theorem legacy_shadowed :
    ∃ s, (settingsReads portSerde (.text legacyText)).Reaches renameFailsOnce s ∧
      ¬ s.Unshadowed portSerde (.text legacyText) ∧
      s.inForce.map Settings.portNumber = some 4500 ∧
      ((SettingsFile.text legacyText).settings portSerde).portNumber = 9000 := by
  have hfails : readSettings portSerde (.legacyOnly (.text legacyText)) ⟨true, false, .written⟩ =
      (.default, shadowedHome) := by
    unfold readSettings
    rw [migrateLegacy_legacyOnly_fails rfl]
    rfl
  have hread : readSettings portSerde shadowedHome .none = (.default, shadowedHome) := by
    rw [readSettings_of_file rfl, portSerde_defaultText]
  refine ⟨⟨shadowedHome, some .default⟩, ?_, ?_, rfl, by with_unfolding_all rfl⟩
  · simp only [Machine.Reaches, renameFailsOnce, Machine.run_cons, settingsReads, hfails, hread,
      Option.bind_some, Machine.run_nil]
  · rintro (h | ⟨h, -⟩)
    · exact absurd (congrArg Home.settingsDir h) (by simp [shadowedHome, Home.legacyOnly])
    · exact absurd (congrArg Home.legacySettingsDir h) (by simp [shadowedHome, Home.renamed])

theorem SettingsReads.eachStep_failsAsOne {fs : List Faults}
    (h : ∀ f ∈ fs, f.renameFails = true → f.createDirFails = true) :
    (settingsReads j file).EachStep SettingsReads.FailsAsOne fs := by
  intro gs f s hp _ _
  exact h f (hp.subset (List.mem_append_right _ (List.mem_singleton_self f)))

/-- A home directory without space: the first call can neither rename nor create, the second
migrates. -/
theorem legacy_unshadowed_retry :
    ∃ s, (settingsReads portSerde (.text legacyText)).Reaches
        [⟨true, true, .failed none⟩, .none] s ∧
      s.home = .renamed (.text legacyText) ∧ s.Unshadowed portSerde (.text legacyText) := by
  have hrun : ∃ s, (settingsReads portSerde (.text legacyText)).Reaches
      [⟨true, true, .failed none⟩, .none] s ∧ s.home = .renamed (.text legacyText) := by
    with_unfolding_all exact ⟨_, rfl, rfl⟩
  obtain ⟨s, hr, hh⟩ := hrun
  refine ⟨s, hr, hh, ((legacy_unshadowed_iff hr).mpr ?_).last hr⟩
  exact SettingsReads.eachStep_failsAsOne (by decide)

end Vigil

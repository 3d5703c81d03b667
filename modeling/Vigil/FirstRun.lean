import Vigil.Migration
import Vigil.SettingsJson
import Vigil.Startup

/-!
# What the collector does to its settings

Between two edits of the user only `read_settings` touches the settings
directories. `settings_file_kept` says all it can do to them: a settings file
that exists is never changed, and one that appears is the legacy file under its
new name or the defaults (or the part of them that a failed write got through).

On a host without settings every call returns the defaults, whatever fails
(`fresh_host_defaults`): the defaults that are written read back as themselves,
and a part of them does not parse.
-/

namespace Vigil

open Vigil.Lib

/-! ## One call -/

variable {j : SettingsSerde} {h h' : Home} {f : Faults} {file : SettingsFile}

/-- A call finds no settings file, nor a legacy one that it migrates: the settings directory
exists, there is no legacy file, or the rename fails. -/
structure Home.FindsNone (h : Home) (f : Faults) : Prop where
  absent : h.settingsFile = none
  unmigrated : ∀ file, h = .legacyOnly file → f.renameFails = true

/-- How one call brings a settings file where there is none. -/
inductive Brings (j : SettingsSerde) (h : Home) (f : Faults) : SettingsFile → Prop where
  | renamed (file : SettingsFile) : h = .legacyOnly file → f.renameFails = false →
      Brings j h f file
  | defaults (s : String) : h.FindsNone f → j.pretty .default = .ok s → f.write = .written →
      Brings j h f (.text s)
  | part (s l : String) : h.FindsNone f → j.pretty .default = .ok s →
      f.write = .failed (some l) → Brings j h f (.text l)

/-- What a call that finds no settings file may leave behind. -/
inductive Leaves (j : SettingsSerde) (h : Home) (f : Faults) : Home → Prop where
  /-- a file stands where the directory should be, or the directory cannot be created -/
  | nothing : Leaves j h f h
  /-- the directory is there, and the defaults could not be written -/
  | dir (legacy : Option Entry) : Leaves j h f ⟨some (.dir none), legacy⟩
  | brought (file : SettingsFile) (legacy : Option Entry) : Brings j h f file →
      Leaves j h f ⟨some (.dir (some file)), legacy⟩

theorem leaves_create (hn : h.FindsNone f) (legacy : Option Entry) :
    Leaves j h f (match j.pretty .default with
      | .ok s => Home.writeSettings ⟨some (.dir none), legacy⟩ f s
      | .error _ => ⟨some (.dir none), legacy⟩) := by
  cases hp : j.pretty .default with
  | error e => exact .dir legacy
  | ok s =>
    dsimp only [Home.writeSettings]
    cases hw : f.write with
    | written => exact .brought _ legacy (.defaults s hn hp hw)
    | failed left =>
      cases left with
      | none => exact .dir legacy
      | some l => exact .brought _ legacy (.part s l hn hp hw)

theorem readSettings_dir (hn : h.FindsNone f) (legacy : Option Entry) :
    Leaves j h f (readSettings j ⟨some (.dir none), legacy⟩ f).2 := by
  have hl := leaves_create (j := j) hn legacy
  unfold readSettings Home.migrateLegacy
  simp only [Option.isSome_some, if_true, Home.settingsFile, Home.createDirAll]
  cases hp : j.pretty .default <;> simpa [hp] using hl

/-- The migration is over after one attempt. -/
theorem readSettings_migrateLegacy :
    readSettings j (h.migrateLegacy f) f = readSettings j h f := by
  have hm : (h.migrateLegacy f).migrateLegacy f = h.migrateLegacy f := by
    rcases h with ⟨_ | e, _ | (_ | s)⟩
    · rfl
    · rfl
    · cases hr : f.renameFails <;> simp [Home.migrateLegacy, hr]
    · rfl
    · rfl
    · rfl
  unfold readSettings
  rw [hm]

theorem readSettings_creates {legacy : Option Entry} (hn : Home.FindsNone ⟨none, legacy⟩ f)
    (hm : Home.migrateLegacy ⟨none, legacy⟩ f = ⟨none, legacy⟩) :
    Leaves j ⟨none, legacy⟩ f (readSettings j ⟨none, legacy⟩ f).2 := by
  have hl := leaves_create (j := j) hn legacy
  unfold readSettings
  rw [hm]
  simp only [Home.settingsFile, Home.createDirAll]
  cases f.createDirFails with
  | true => exact .nothing
  | false => cases hp : j.pretty .default <;> simpa [hp] using hl

theorem Home.FindsNone.leaves (hn : h.FindsNone f) : Leaves j h f (readSettings j h f).2 := by
  rcases h with ⟨_ | (_ | (_ | file)), legacy⟩
  · rcases legacy with _ | (_ | s)
    · exact readSettings_creates hn rfl
    · exact readSettings_creates hn rfl
    · cases hr : f.renameFails with
      | true => exact readSettings_creates hn (by simp [Home.migrateLegacy, hr])
      | false =>
        cases s with
        | some file => exact absurd ((hn.unmigrated file rfl).symm.trans hr) Bool.noConfusion
        | none =>
          have hm : Home.migrateLegacy ⟨none, some (.dir none)⟩ f = ⟨some (.dir none), none⟩ := by
            simp [Home.migrateLegacy, hr]
          rw [← readSettings_migrateLegacy, hm]
          exact readSettings_dir hn none
  · exact .nothing
  · exact readSettings_dir hn legacy
  · cases hn.absent

/-- **All that a call does to the settings directories.** -/
theorem readSettings_leaves (hf : h.settingsFile = none) : Leaves j h f (readSettings j h f).2 := by
  by_cases hn : ∀ file, h = .legacyOnly file → f.renameFails = true
  · exact (Home.FindsNone.mk hf hn).leaves
  · push Not at hn
    obtain ⟨file, rfl, hr⟩ := hn
    have hr : f.renameFails = false := Bool.eq_false_iff.mpr hr
    rw [readSettings_legacyOnly_renames hr]
    exact .brought file none (.renamed file rfl hr)

/-! ## Runs without edits -/

def CollectorEvent.faults : CollectorEvent → Option Faults
  | .edit _ => none
  | .boot f | .probes f => some f

def CollectorEvent.IsCall (e : CollectorEvent) : Prop := ∃ f, e.faults = some f

namespace Collector

variable {c c' : Collector} {home : Home}

theorem home_step {e : CollectorEvent} (he : e.faults = some f) (hs : c.step j e = some c') :
    c'.home = (readSettings j c.home f).2 := by
  cases e with
  | edit h => cases he
  | boot f =>
    cases he
    cases hc : c.stage <;> simp only [step, hc, Option.some.injEq, reduceCtorEq] at hs
    rw [← hs]
    unfold boot
    dsimp only
    split <;> rfl
  | probes f =>
    cases he
    cases hc : c.stage <;> simp only [step, hc, Option.some.injEq, reduceCtorEq] at hs
    rw [← hs]
    unfold probes
    dsimp only
    split <;> rfl

/-- Where a settings file comes from that the calls `es` from `c` have brought: from one of them,
made in a state `d`. If it finds nothing but legacy settings, these were there from the start. -/
inductive Origin (j : SettingsSerde) (home : Home) (c : Collector) (es : List CollectorEvent)
    (file : SettingsFile) : Prop where
  | call (d : Collector) (e : CollectorEvent) (f : Faults) : (collector j home).Plays c es d e →
      e.faults = some f → Brings j d.home f file →
      (readSettings j d.home f).2.settingsFile = some file →
      (∀ old, d.home = .legacyOnly old → d.home = c.home) → Origin j home c es file

theorem Origin.snoc {es : List CollectorEvent} (ho : Origin j home c es file)
    (e : CollectorEvent) : Origin j home c (es ++ [e]) file := by
  obtain ⟨d, e', f, hp, he, hb, hleft, hl⟩ := ho
  exact ⟨d, e', f, hp.snoc e, he, hb, hleft, hl⟩

/-- The home directory after calls only, which started without a settings file at `c`. -/
structure Since (j : SettingsSerde) (home : Home) (c : Collector) (es : List CollectorEvent)
    (h : Home) : Prop where
  absent : h.settingsFile = none → h = c.home ∨ ∃ legacy, h = ⟨some (.dir none), legacy⟩
  origin : ∀ file, h.settingsFile = some file → Origin j home c es file

theorem Since.call {es : List CollectorEvent} {e : CollectorEvent} {d : Collector}
    (hs : Since j home c es d.home) (hr : (collector j home).run c es = some d)
    (he : e.faults = some f) : Since j home c (es ++ [e]) (readSettings j d.home f).2 := by
  cases hfile : d.home.settingsFile with
  | some file =>
    rw [readSettings_of_file hfile]
    refine ⟨fun hn => ?_, fun file' hf' => (hs.origin file' hf').snoc e⟩
    rw [hfile] at hn
    cases hn
  | none =>
    have hl := readSettings_leaves (j := j) (f := f) hfile
    generalize hcall : (readSettings j d.home f).2 = h' at hl
    cases hl with
    | nothing =>
      refine ⟨hs.absent, fun file hf => ?_⟩
      rw [hfile] at hf
      cases hf
    | dir legacy => exact ⟨fun _ => .inr ⟨legacy, rfl⟩, nofun⟩
    | brought file legacy hb =>
      refine ⟨nofun, fun file' hf => ?_⟩
      cases hf
      refine ⟨d, e, f, Machine.plays_last hr e, he, hb, by rw [hcall]; rfl, fun old ho => ?_⟩
      rcases hs.absent hfile with hh | ⟨legacy, hh⟩
      · exact hh
      · rw [hh] at ho
        cases ho

end Collector

/-- **The collector keeps the settings file.** Over any calls between two edits, a settings file
that is there stays as it is and in force, and one that appears comes from one of the calls: the
legacy file under its new name, or the defaults (or the part of them that a failed write got
through) from a call that found no settings file and did not migrate one. -/
theorem settings_file_kept {home : Home} {es : List CollectorEvent} {c c' : Collector}
    (hes : ∀ e ∈ es, e.IsCall) (hr : (collector j home).run c es = some c') :
    (∀ file, c.home.settingsFile = some file →
      c'.home = c.home ∧ ∀ f, readSettings j c'.home f = (file.settings j, c.home)) ∧
    (c.home.settingsFile = none → ∀ file, c'.home.settingsFile = some file →
      Collector.Origin j home c es file) := by
  constructor
  · intro file hfile
    have hkept : c'.home = c.home := by
      refine Machine.run_preserves_of (C := CollectorEvent.IsCall)
        (P := fun d : Collector => d.home = c.home) ?_ hes hr rfl
      rintro d e d' ⟨f, he⟩ hd hs
      rw [Collector.home_step he hs, hd, readSettings_of_file hfile]
    exact ⟨hkept, fun f => hkept ▸ readSettings_of_file (hkept ▸ hfile)⟩
  · intro hnone
    refine (Machine.run_hist (P := fun es d => (∀ e ∈ es, e.IsCall) →
      Collector.Since j home c es d.home) (fun _ => ?_) ?_ hr hes).origin
    · exact ⟨fun _ => .inl rfl, fun file hf => by simp [hnone] at hf⟩
    · intro es e d d' hrun ih hs hes
      obtain ⟨f, he⟩ := hes e (List.mem_append_right _ (List.mem_singleton_self e))
      rw [Collector.home_step he hs]
      exact (ih fun e he => hes e (List.mem_append_left _ he)).call hrun he

/-! ## A host without settings -/

/-- `text` is what the defaults are written as: it reads back as the defaults, and what is cut off
before its end does not parse. -/
structure SettingsSerde.WritesDefaults (j : SettingsSerde) (text : String) : Prop where
  pretty : j.pretty .default = .ok text
  parse : j.parse text = .ok Settings.default.serialize
  cut : ∀ l, l.toList <+: text.toList → l ≠ text → ∃ e, j.parse l = .error e

/-- A write that fails leaves the beginning of the text, if anything. -/
def Faults.LeavesPart (text : String) (f : Faults) : Prop :=
  ∀ l, f.write = .failed (some l) → l.toList <+: text.toList

/-- There are no settings to read, or they stand for the defaults. -/
inductive Fresh (j : SettingsSerde) (h : Home) : Prop where
  | absent : h.settingsFile = none → (∀ file, h ≠ .legacyOnly file) → Fresh j h
  | default (file : SettingsFile) : h.settingsFile = some file → file.settings j = .default →
      Fresh j h

variable {text : String}

theorem SettingsSerde.WritesDefaults.settings (hj : j.WritesDefaults text) :
    (SettingsFile.text text).settings j = .default := by
  rw [SettingsFile.settings, fromStr, hj.parse]
  exact congrArg (·.getD .default) (Settings.deserialize_serialize Settings.default_fits)

theorem SettingsSerde.WritesDefaults.settings_part (hj : j.WritesDefaults text) {l : String}
    (hl : l.toList <+: text.toList) : (SettingsFile.text l).settings j = .default := by
  by_cases he : l = text
  · rw [he, hj.settings]
  · obtain ⟨e, hp⟩ := hj.cut l hl he
    rw [SettingsFile.settings, fromStr, hp]
    rfl

theorem Fresh.readSettings (hh : Fresh j h) (f : Faults) : (readSettings j h f).1 = .default := by
  cases hh with
  | absent hn hl =>
    have ht : h.text f = none := by
      rcases h with ⟨_ | (_ | (_ | file)), legacy⟩
      · rcases legacy with _ | (_ | (_ | file))
        · rfl
        · rfl
        · cases hr : f.renameFails <;> simp [Home.text, Home.migrateLegacy, hr, Home.settingsFile]
        · exact absurd rfl (hl file)
      · rfl
      · rfl
      · cases hn
    rw [readSettings_fst, ht]
    rfl
  | default file hf hd => rw [readSettings_of_file hf, hd]

theorem Fresh.call (hj : j.WritesDefaults text) (hh : Fresh j h) (hf : f.LeavesPart text) :
    Fresh j (Vigil.readSettings j h f).2 := by
  cases hh with
  | default file hfile hd =>
    rw [readSettings_of_file hfile]
    exact .default file hfile hd
  | absent hn hl =>
    have hleaves := readSettings_leaves (j := j) (f := f) hn
    generalize (Vigil.readSettings j h f).2 = h' at hleaves ⊢
    cases hleaves with
    | nothing => exact .absent hn hl
    | dir legacy => exact .absent rfl nofun
    | brought file legacy hb =>
      refine .default file rfl ?_
      cases hb with
      | renamed _ he => exact absurd he (hl file)
      | defaults s _ hp =>
        obtain rfl : text = s := Except.ok.inj (hj.pretty.symm.trans hp)
        exact hj.settings
      | part s l _ _ hw => exact hj.settings_part (hf l hw)

theorem boot_default :
    ∃ i t : Duration, Vigil.boot .default = .ok (i, t) ∧ i.secs = 1 ∧ t.secs = 5 :=
  ⟨⟨1, by norm_num, by norm_num⟩, ⟨5, by norm_num, by norm_num⟩, by decide +kernel, rfl, rfl⟩

theorem probes_timeout_default : (Probes.timeout .default).isSome := by
  rw [probes_timeout_isSome]
  norm_num [Settings.default, defaultProbeTimeout]

/-- The collector has not booted yet, or serves with the durations of the defaults. -/
inductive Stage.IsDefault : Stage → Prop where
  | booting : IsDefault .booting
  | serving (interval clientTimeout : Duration) : interval.secs = 1 → clientTimeout.secs = 5 →
      IsDefault (.serving interval clientTimeout)

theorem Collector.isDefault_step {c c' : Collector} {e : CollectorEvent} (hc : Fresh j c.home)
    (hd : c.stage.IsDefault) (he : e.faults = some f) (hs : c.step j e = some c') :
    c'.stage.IsDefault := by
  cases e with
  | edit h => cases he
  | boot f =>
    cases hst : c.stage <;> simp only [step, hst, Option.some.injEq, reduceCtorEq] at hs
    obtain ⟨i, t, hb, hi, ht⟩ := boot_default
    rw [← hs, boot, hc.readSettings, hb]
    exact .serving i t hi ht
  | probes f =>
    cases hst : c.stage <;> simp only [step, hst, Option.some.injEq, reduceCtorEq] at hs
    obtain ⟨t, ht⟩ := Option.isSome_iff_exists.mp probes_timeout_default
    rw [← hs, probes, hc.readSettings, ht]
    exact hst ▸ hd

/-- **A host without settings runs on the defaults.** Whatever fails in whatever call, at startup or
for a probe request: every call returns the defaults, before and after they are written, and the
collector serves with their durations. -/
theorem fresh_host_defaults {home : Home} {es : List CollectorEvent} {c : Collector}
    (hj : j.WritesDefaults text) (hn : home.settingsFile = none)
    (hl : ∀ file, home ≠ .legacyOnly file)
    (hes : ∀ e ∈ es, ∃ f, e.faults = some f ∧ f.LeavesPart text)
    (hr : (collector j home).Reaches es c) :
    (∀ f, (readSettings j c.home f).1 = .default) ∧ c.stage.IsDefault := by
  have hinv : Fresh j c.home ∧ c.stage.IsDefault := by
    refine Machine.run_preserves_of
      (C := fun e : CollectorEvent => ∃ f, e.faults = some f ∧ f.LeavesPart text)
      (P := fun d : Collector => Fresh j d.home ∧ d.stage.IsDefault) ?_ hes hr
      ⟨.absent hn hl, .booting⟩
    rintro d e d' ⟨f, he, hf⟩ ⟨hh, hd⟩ hs
    exact ⟨Collector.home_step he hs ▸ hh.call hj hf, Collector.isDefault_step hh hd he hs⟩
  exact ⟨hinv.1.readSettings, hinv.2⟩

/-! ## A disk that is full once -/

theorem defaultSerde_writesDefaults (text : String) : (defaultSerde text).WritesDefaults text where
  pretty := rfl
  parse := defaultSerde_parse text
  cut _ _ hl := ⟨_, if_neg hl⟩

def partWritten (part : String) : Faults := ⟨false, false, .failed (some part)⟩

theorem reaches_partWritten (text part : String) :
    ∃ c, (collector (defaultSerde text) ⟨none, none⟩).Reaches [.boot (partWritten part)] c ∧
      c.home.settingsFile = some (.text part) ∧ ∃ i t, c.stage = .serving i t := by
  with_unfolding_all exact ⟨_, rfl, rfl, _, _, rfl⟩

theorem fresh_host_defaults_part :
    let text := "\x7b\n" ++ defaultLines
    ∃ c, (collector (defaultSerde text) ⟨none, none⟩).Reaches [.boot (partWritten "\x7b\n")] c ∧
      c.home.settingsFile = some (.text "\x7b\n") ∧
      ∀ f, (readSettings (defaultSerde text) c.home f).1 = .default := by
  intro text
  obtain ⟨c, hr, hf, -⟩ := reaches_partWritten text "\x7b\n"
  have hpart : (partWritten "\x7b\n").LeavesPart text := by
    rintro l ⟨⟩
    rw [String.toList_append]
    exact List.prefix_append _ _
  have hl : ∀ file, (⟨none, none⟩ : Home) ≠ .legacyOnly file := nofun
  refine ⟨c, hr, hf, (fresh_host_defaults (defaultSerde_writesDefaults text) rfl hl ?_ hr).1⟩
  rintro e he
  obtain rfl := List.mem_singleton.mp he
  exact ⟨_, rfl, hpart⟩

/-- The part comes from the first call, and the next one reads it and leaves it. -/
theorem settings_file_kept_part :
    let boot := CollectorEvent.boot (partWritten "\x7b\n")
    let lab := collector (defaultSerde defaultText) ⟨none, none⟩
    ∃ c c', lab.Reaches [boot] c ∧
      Collector.Origin (defaultSerde defaultText) ⟨none, none⟩ lab.init [boot] (.text "\x7b\n") ∧
      lab.run c [.probes .none] = some c' ∧ c'.home = c.home := by
  intro boot lab
  obtain ⟨c, hr, hf, i, t, hst⟩ := reaches_partWritten defaultText "\x7b\n"
  have hrun : lab.run c [.probes .none] = some (c.probes (defaultSerde defaultText) .none) := by
    simp [lab, Machine.run_cons, collector, Collector.step, hst]
  have hcall : ∀ {f e}, CollectorEvent.faults e = some f → ∀ e' ∈ [e], e'.IsCall :=
    fun hf _ he => List.mem_singleton.mp he ▸ ⟨_, hf⟩
  exact ⟨c, _, hr, (settings_file_kept (hcall rfl) hr).2 rfl _ hf, hrun,
    ((settings_file_kept (hcall rfl) hrun).1 _ hf).1⟩

end Vigil

import Vigil.Metrics.System

/-!
# The CPU temperature among the sensors

`read_via_components` should look the priority list up: the entry that comes
first in `cpuTempLabelPriority` decides. Its loop ends instead at the first
component that matches any entry, so the order of the components decides
(`readViaComponents_eq`).
-/

namespace Vigil.Metrics

open Vigil.Lib

def Component.hasLabel (c : Component) (needle : String) : Bool :=
  Text.contains needle (Text.toAsciiLowercase c.label)

/-- The components with a finite temperature, and that temperature. -/
def finiteReadings (components : List Component) : List (Component × ℚ) :=
  components.filterMap fun c =>
    match c.temperature with
    | .fin temp => some (c, temp)
    | _ => none

/-- The first entry of the priority list that some finite component matches. -/
def topEntry (components : List Component) : Option String :=
  cpuTempLabelPriority.find? fun needle =>
    (finiteReadings components).any fun f => f.1.hasLabel needle

/-- The finite component the loop ends at. -/
def firstLabelled (components : List Component) : Option (Component × ℚ) :=
  (finiteReadings components).find? fun f => f.1.isLabelled

theorem Component.isLabelled_iff {c : Component} :
    c.isLabelled = true ↔ ∃ needle ∈ cpuTempLabelPriority, c.hasLabel needle = true :=
  List.any_eq_true

theorem componentLoop_eq (anyNumeric : Option ℚ) (components : List Component) :
    componentLoop anyNumeric components =
      ((firstLabelled components).map Prod.snd,
        anyNumeric.or ((finiteReadings components).head?.map Prod.snd)) := by
  induction components generalizing anyNumeric with
  | nil => simp [componentLoop, firstLabelled, finiteReadings]
  | cons c components ih =>
    unfold componentLoop
    cases ht : c.temperature with
    | nan => simpa [firstLabelled, finiteReadings, ht] using ih anyNumeric
    | inf neg => simpa [firstLabelled, finiteReadings, ht] using ih anyNumeric
    | fin temp =>
      have hcons : finiteReadings (c :: components) = (c, temp) :: finiteReadings components := by
        simp [finiteReadings, ht]
      dsimp only
      rw [firstLabelled, hcons]
      split
      · next hl => simp [hl]
      · next hl =>
        rw [ih, firstLabelled, List.find?_cons_of_neg (a := (c, temp)) hl]
        cases anyNumeric <;> simp

/-- The temperature of the first component that matches an entry, or of the first one at all. -/
theorem readViaComponents_eq (components : List Component) :
    readViaComponents components =
      ((firstLabelled components).or (finiteReadings components).head?).map
        fun f => round1 f.2 := by
  unfold readViaComponents
  rw [componentLoop_eq]
  cases firstLabelled components <;> cases (finiteReadings components).head? <;> rfl

theorem topEntry_eq_none_iff {components : List Component} :
    topEntry components = none ↔ firstLabelled components = none := by
  rw [topEntry, firstLabelled, List.find?_eq_none, List.find?_eq_none]
  simp only [List.any_eq_true, Component.isLabelled_iff, not_exists, not_and]
  exact ⟨fun h f hf needle hn => h needle hn f hf, fun h needle hn f hf => h f hf needle hn⟩

/-- The temperature is read by priority first and by position second. -/
structure FollowsPriority (components : List Component) : Prop where
  none_iff : readViaComponents components = none ↔ finiteReadings components = []
  labelled : ∀ needle, topEntry components = some needle →
    ∃ f ∈ finiteReadings components, f.1.hasLabel needle = true ∧
      readViaComponents components = some (round1 f.2)
  unlabelled : topEntry components = none →
    readViaComponents components = (finiteReadings components).head?.map fun f => round1 f.2

/-- The first component that matches an entry matches the top one, or is as warm as one that does,
to one decimal. -/
def TopEntryFirst (components : List Component) : Prop :=
  ∀ first needle, firstLabelled components = some first → topEntry components = some needle →
    ∃ f ∈ finiteReadings components, f.1.hasLabel needle = true ∧ round1 f.2 = round1 first.2

/-- **When the sensor follows the priority list**: when a component of the top entry comes first. -/
theorem follows_priority_iff (components : List Component) :
    FollowsPriority components ↔ TopEntryFirst components := by
  have hsome : ∀ {first}, firstLabelled components = some first →
      readViaComponents components = some (round1 first.2) := by
    intro first h
    rw [readViaComponents_eq, h]
    rfl
  constructor
  · intro h first needle hf ht
    obtain ⟨f, hmem, hlabel, hread⟩ := h.labelled needle ht
    exact ⟨f, hmem, hlabel, Option.some.inj (hread.symm.trans (hsome hf))⟩
  · intro h
    refine ⟨?_, ?_, ?_⟩
    · rw [readViaComponents_eq, Option.map_eq_none_iff, Option.or_eq_none_iff,
        List.head?_eq_none_iff]
      refine and_iff_right_of_imp fun hnil => ?_
      rw [firstLabelled, hnil]
      rfl
    · intro needle ht
      cases hf : firstLabelled components with
      | none => exact absurd (topEntry_eq_none_iff.mpr hf) (by simp [ht])
      | some first =>
        obtain ⟨f, hmem, hlabel, hround⟩ := h first needle hf ht
        exact ⟨f, hmem, hlabel, by rw [hsome hf, hround]⟩
    · intro ht
      rw [readViaComponents_eq, topEntry_eq_none_iff.mp ht]
      rfl

def boardFirst : List Component := [⟨"acpitz CPU", .fin 40⟩, ⟨"Package id 0", .fin 70⟩]

theorem boardFirst_breaks_priority :
    readViaComponents boardFirst = some 40 ∧ topEntry boardFirst = some "package" ∧
      ¬ FollowsPriority boardFirst := by
  have hread : readViaComponents boardFirst = some 40 := by decide +kernel
  have htop : topEntry boardFirst = some "package" := by decide +kernel
  refine ⟨hread, htop, fun h => ?_⟩
  have hround : round1 70 ≠ 40 := by decide +kernel
  have hcpu : Component.hasLabel ⟨"acpitz CPU", .fin 40⟩ "package" = false := by decide +kernel
  obtain ⟨f, hmem, hlabel, hf⟩ := h.labelled "package" htop
  rw [hread] at hf
  have hlist : finiteReadings boardFirst =
      [(⟨"acpitz CPU", .fin 40⟩, 40), (⟨"Package id 0", .fin 70⟩, 70)] := rfl
  rw [hlist, List.mem_cons, List.mem_singleton] at hmem
  rcases hmem with rfl | rfl
  · exact absurd hlabel (by simp [hcpu])
  · exact hround (Option.some.inj hf).symm

end Vigil.Metrics

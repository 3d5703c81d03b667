import Vigil.Sampler.Publish

/-!
# What every publication satisfies

The induction over runs of the sampler, once for all properties of what it
publishes. A `RefreshInv` is a property of the states and one of the snapshots:
a new state has the first, a refresh keeps it and its snapshot has the second,
and statics that are initialised later take nothing away. `published_of` is the
rule: every publication of every run has the property, whatever ticks fail.
-/

namespace Vigil

open Vigil.Lib Vigil.Metrics

/-- `S` holds of the states and `Q` of the snapshots, under the statics of the process, as long as
the readings of the host satisfy `C`. -/
structure RefreshInv (C : Reading → Prop) (S : Statics → SamplerState → Prop)
    (Q : Statics → Snapshot → Prop) : Prop where
  new : ∀ g r, C r → S g (.new r)
  refresh : ∀ st g r, S g st → C r →
    S (st.refresh g r).2.2 (st.refresh g r).2.1 ∧ Q (st.refresh g r).2.2 (st.refresh g r).1
  mono_state : ∀ g g' st, g.Extends g' → S g st → S g' st
  mono_snap : ∀ g g' snap, g.Extends g' → Q g snap → Q g' snap

def SamplerEvent.Reads (C : Reading → Prop) : SamplerEvent → Prop
  | .refreshed r | .rebuilt r => C r
  | _ => True

/-! ## Statics -/

namespace Metrics.Statics

theorem extends_refl (g : Statics) : g.Extends g := by
  refine ⟨?_, ?_, ?_⟩
  · cases g.user <;> simp
  · cases g.distro <;> simp
  · cases g.pssSupported <;> simp

theorem Extends.trans {g g' g'' : Statics} (h : g.Extends g') (h' : g'.Extends g'') :
    g.Extends g'' := by
  have hslot : ∀ {α : Type} [DecidableEq α] {a b c : Option α}, a.all (b = some ·) = true →
      b.all (c = some ·) = true → a.all (c = some ·) = true := by
    intro α _ a b c hab hbc
    cases a with
    | none => rfl
    | some x =>
      obtain rfl : b = some x := by simpa using hab
      exact hbc
  exact ⟨hslot h.1 h'.1, hslot h.2.1 h'.2.1, hslot h.2.2 h'.2.2⟩

end Metrics.Statics

theorem all_getOrInit {α : Type} [DecidableEq α] (slot : Option α) (init : α) :
    slot.all ((getOrInit slot init).2 = some ·) = true := by
  cases slot <;> simp [getOrInit]

/-- A refresh initialises statics and changes none. -/
theorem SamplerState.extends_refresh (st : SamplerState) (g : Statics) (r : Reading) :
    g.Extends (st.refresh g r).2.2 := by
  have hscan : g.Extends ((st.refreshCounters r).scanPhase g r).2 := by
    unfold scanPhase
    split
    · have hpss := all_getOrInit g.pssSupported
        (detectPss r (((st.refreshCounters r).sys.refreshCpuFrequency r).refreshProcesses r))
      exact ⟨g.extends_refl.1, g.extends_refl.2.1, hpss⟩
    · exact g.extends_refl
  have hcollect : ∀ (st : SamplerState) (g : Statics), g.Extends (st.collect g r).2.2 := fun _ g =>
    ⟨all_getOrInit g.user r.username, all_getOrInit g.distro (detectDistro r), g.extends_refl.2.2⟩
  exact hscan.trans (hcollect _ _)

/-! ## The rule -/

namespace Sampler

variable {strategy : PanicStrategy} {ser : ToVec} {seed first : Reading} {s s' : Sampler}
variable {C : Reading → Prop} {S : Statics → SamplerState → Prop} {Q : Statics → Snapshot → Prop}

/-- The state and the snapshot that the task holds have the properties. -/
def TaskHolds (S : Statics → SamplerState → Prop) (Q : Statics → Snapshot → Prop)
    (g : Statics) : TickTask → Prop
  | .sleeping (some st) | .refreshing st => S g st
  | .joining (some (snap, st)) => S g st ∧ Q g snap
  | .sleeping none | .joining none | .stopped | .panicked => True

structure Holds (S : Statics → SamplerState → Prop) (Q : Statics → Snapshot → Prop)
    (s : Sampler) : Prop where
  task : TaskHolds S Q s.statics s.task
  published : ∀ p ∈ s.published, Q s.statics p.snap

theorem holds_start (h : RefreshInv C S Q) (hs : C seed) (hf : C first) :
    (start ser seed first).Holds S Q := by
  obtain ⟨hst, hq⟩ := h.refresh (.new seed) .uninit first (h.new _ seed hs) hf
  refine ⟨hst, fun p hp => ?_⟩
  rw [List.mem_singleton.mp hp]
  exact hq

theorem holds_panic (h : s.Holds S Q) : (s.panic strategy).Holds S Q := by
  cases strategy with
  | unwind => exact ⟨trivial, h.published⟩
  | abort => exact ⟨h.task, h.published⟩

theorem holds_step (hi : RefreshInv C S Q) {e : SamplerEvent} (hC : e.Reads C) (h : s.Holds S Q)
    (hs : s.step strategy ser e = some s') : s'.Holds S Q := by
  have ht := h.task
  cases (step_moves hs).2 with
  | wake st htask =>
    rw [htask] at ht
    exact ⟨ht, h.published⟩
  | refreshed owned r htask =>
    rw [htask] at ht
    have hext := owned.extends_refresh s.statics r
    exact ⟨hi.refresh owned s.statics r ht hC,
      fun p hp => hi.mono_snap _ _ _ hext (h.published p hp)⟩
  | failed owned g htask hext =>
    exact ⟨trivial, fun p hp => hi.mono_snap _ _ _ hext (h.published p hp)⟩
  | joined snap st htask =>
    rw [htask] at ht
    refine ⟨ht.1, fun p hp => ?_⟩
    rcases List.mem_append.mp hp with hp | hp
    · exact h.published p hp
    · rw [List.mem_singleton.mp hp]
      exact ht.2
  | rebuilt r _ => exact ⟨hi.new _ r hC, h.published⟩
  | expect | rebuildPanics => exact holds_panic h
  | stop => exact ⟨trivial, h.published⟩
  | abort | read => exact ⟨h.task, h.published⟩

end Sampler

/-- **The rule.** What a refresh gives its snapshot, every publication has. -/
theorem published_of {C : Reading → Prop} {S : Statics → SamplerState → Prop}
    {Q : Statics → Snapshot → Prop} (hi : RefreshInv C S Q) {strategy : PanicStrategy} {ser : ToVec}
    {seed first : Reading} (hseed : C seed) (hfirst : C first) {es : List SamplerEvent}
    (hes : ∀ e ∈ es, e.Reads C) {s : Sampler}
    (hr : (sampler strategy ser seed first).Reaches es s) :
    ∀ p ∈ s.published, Q s.statics p.snap := by
  have hrun := Machine.run_preserves_of (M := sampler strategy ser seed first)
    (C := SamplerEvent.Reads C) (P := Sampler.Holds S Q)
    (fun _ _ _ hC h hs => Sampler.holds_step hi hC h hs) hes hr
    (Sampler.holds_start hi hseed hfirst)
  exact hrun.published

end Vigil

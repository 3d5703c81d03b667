import Mathlib.Data.List.Induction
import Mathlib.Data.List.Infix

/-!
# Event-driven machines

A `Machine` has one initial state and a partial step: `step s e = none` says
that `s` does not enable the event `e`. `run` plays a list of events, and
`Reaches es s` says that the machine can play `es` from its initial state and
then stands in `s`.

* `Reaches.hist` is the induction rule for invariants that relate the state to
  the events played so far; `Reaches.inv` is its history-free case.
* `Always` and `EachStep` speak of every state, and of every step, of one run.
  `always_iff_eachStep` turns a safety property of runs into a guard on the
  steps, when the guard is exactly what a step needs to stay safe.
* `Reaches.sim` carries a run over to a more abstract machine.
-/

namespace Vigil.Lib

universe u v w x

structure Machine (σ : Type u) (ε : Type v) where
  init : σ
  step : σ → ε → Option σ

namespace Machine

variable {σ : Type u} {ε : Type v} (M : Machine σ ε)

/-- Play the events in order; `none` when one of them is not enabled. -/
def run : σ → List ε → Option σ
  | s, [] => some s
  | s, e :: es => (M.step s e).bind fun s' => run s' es

def Reaches (es : List ε) (s : σ) : Prop := M.run M.init es = some s

@[simp] theorem run_nil (s : σ) : M.run s [] = some s := rfl

theorem run_cons (s : σ) (e : ε) (es : List ε) :
    M.run s (e :: es) = (M.step s e).bind fun s' => M.run s' es := rfl

theorem run_append (s : σ) (es fs : List ε) :
    M.run s (es ++ fs) = (M.run s es).bind fun s' => M.run s' fs := by
  induction es generalizing s with
  | nil => rfl
  | cons e es ih =>
    simp only [List.cons_append, run_cons]
    cases M.step s e with
    | none => rfl
    | some s' => exact ih s'

theorem run_snoc (s : σ) (es : List ε) (e : ε) :
    M.run s (es ++ [e]) = (M.run s es).bind fun s' => M.step s' e := by
  rw [run_append]
  cases M.run s es with
  | none => rfl
  | some s' => simp [run_cons]

variable {M}

theorem Reaches.nil : M.Reaches [] M.init := rfl

theorem reaches_nil {s : σ} : M.Reaches [] s ↔ s = M.init := by
  simp [Reaches, eq_comm]

theorem reaches_snoc {es : List ε} {e : ε} {s' : σ} :
    M.Reaches (es ++ [e]) s' ↔ ∃ s, M.Reaches es s ∧ M.step s e = some s' := by
  simp only [Reaches, run_snoc, Option.bind_eq_some_iff]

theorem Reaches.snoc {es : List ε} {e : ε} {s s' : σ} (h : M.Reaches es s)
    (hs : M.step s e = some s') : M.Reaches (es ++ [e]) s' :=
  reaches_snoc.mpr ⟨s, h, hs⟩

theorem Reaches.unique {es : List ε} {s t : σ} (h : M.Reaches es s) (h' : M.Reaches es t) :
    s = t := Option.some.inj (h.symm.trans h')

/-- A run splits at any prefix of its events. -/
theorem Reaches.split {es fs : List ε} {t : σ} (h : M.Reaches (es ++ fs) t) :
    ∃ s, M.Reaches es s ∧ M.run s fs = some t := by
  simpa only [Reaches, run_append, Option.bind_eq_some_iff] using h

theorem Reaches.initial {es fs : List ε} {t : σ} (h : M.Reaches es t) (hp : fs <+: es) :
    ∃ s, M.Reaches fs s := by
  obtain ⟨gs, rfl⟩ := hp
  obtain ⟨s, hs, -⟩ := h.split
  exact ⟨s, hs⟩

/-- **Invariants over histories.** -/
theorem Reaches.hist {P : List ε → σ → Prop} (h0 : P [] M.init)
    (hs : ∀ es e s s', M.Reaches es s → P es s → M.step s e = some s' → P (es ++ [e]) s')
    {es : List ε} {s : σ} (h : M.Reaches es s) : P es s := by
  induction es using List.reverseRecOn generalizing s with
  | nil => rw [reaches_nil.mp h]; exact h0
  | append_singleton es e ih =>
    obtain ⟨t, ht, he⟩ := reaches_snoc.mp h
    exact hs es e t s ht (ih ht) he

/-- Invariants over what has been played since any state. -/
theorem run_hist {P : List ε → σ → Prop} {s t : σ} (h0 : P [] s)
    (hs : ∀ es e u u', M.run s es = some u → P es u → M.step u e = some u' → P (es ++ [e]) u')
    {es : List ε} (h : M.run s es = some t) : P es t := by
  induction es using List.reverseRecOn generalizing t with
  | nil => obtain rfl : s = t := by simpa using h
           exact h0
  | append_singleton es e ih =>
    rw [run_snoc] at h
    obtain ⟨u, hu, he⟩ := Option.bind_eq_some_iff.mp h
    exact hs es e u t hu (ih hu) he

theorem Reaches.inv {P : σ → Prop} (h0 : P M.init)
    (hs : ∀ s e s', P s → M.step s e = some s' → P s')
    {es : List ε} {s : σ} (h : M.Reaches es s) : P s :=
  h.hist (P := fun _ s => P s) h0 fun _ e s s' _ hp he => hs s e s' hp he

/-- What the steps of some events preserve, every continuation of a run by such events preserves. -/
theorem run_preserves_of {P : σ → Prop} {C : ε → Prop}
    (hs : ∀ s e s', C e → P s → M.step s e = some s' → P s') {es : List ε} (hC : ∀ e ∈ es, C e)
    {s t : σ} (h : M.run s es = some t) (hp : P s) : P t := by
  induction es generalizing s with
  | nil => obtain rfl : s = t := by simpa using h
           exact hp
  | cons e es ih =>
    obtain ⟨s', he, hr⟩ := Option.bind_eq_some_iff.mp h
    exact ih (fun e he => hC e (List.mem_cons_of_mem _ he)) hr
      (hs s e s' (hC e List.mem_cons_self) hp he)

/-- What one step preserves, every continuation of a run preserves. -/
theorem run_preserves {P : σ → Prop} (hs : ∀ s e s', P s → M.step s e = some s' → P s')
    {es : List ε} {s t : σ} (h : M.run s es = some t) (hp : P s) : P t :=
  run_preserves_of (C := fun _ => True) (fun s e s' _ => hs s e s') (fun _ _ => trivial) h hp

variable (M) in
/-- The run `es` from `s` plays `e` in the state `t`. -/
def Plays (s : σ) (es : List ε) (t : σ) (e : ε) : Prop :=
  ∃ fs, fs ++ [e] <+: es ∧ M.run s fs = some t

theorem plays_last {s t : σ} {es : List ε} (h : M.run s es = some t) (e : ε) :
    M.Plays s (es ++ [e]) t e := ⟨es, List.prefix_rfl, h⟩

theorem Plays.snoc {s t : σ} {es : List ε} {e : ε} (h : M.Plays s es t e) (x : ε) :
    M.Plays s (es ++ [x]) t e := by
  obtain ⟨fs, hp, hr⟩ := h
  exact ⟨fs, hp.trans (List.prefix_append _ _), hr⟩

/-! ## Safety along one run -/

variable (M) in
/-- `P` holds in every state that the run `es` passes through, its ends included. -/
def Always (P : σ → Prop) (es : List ε) : Prop := ∀ fs s, fs <+: es → M.Reaches fs s → P s

variable (M) in
/-- Every step of the run `es` is taken in a state that meets `C` for its event. -/
def EachStep (C : σ → ε → Prop) (es : List ε) : Prop :=
  ∀ fs e s, fs ++ [e] <+: es → M.Reaches fs s → C s e

theorem Always.last {P : σ → Prop} {es : List ε} {s : σ} (h : M.Always P es)
    (hr : M.Reaches es s) : P s := h es s List.prefix_rfl hr

theorem EachStep.nil {C : σ → ε → Prop} : M.EachStep C [] := by
  intro fs e s hp
  simp at hp

theorem EachStep.snoc {C : σ → ε → Prop} {es : List ε} {e : ε} (h : M.EachStep C es)
    (he : ∀ s, M.Reaches es s → C s e) : M.EachStep C (es ++ [e]) := by
  intro fs x s hp hr
  rcases List.prefix_concat_iff.mp hp with heq | hp
  · obtain ⟨rfl, hx⟩ := List.append_inj' heq rfl
    obtain rfl : x = e := List.singleton_inj.mp hx
    exact he s hr
  · exact h fs x s hp hr

/-- Invariants over the histories of runs whose steps all meet a guard. -/
theorem EachStep.hist {P : List ε → σ → Prop} {C : σ → ε → Prop} (h0 : P [] M.init)
    (hs : ∀ es e s s', M.Reaches es s → C s e → P es s → M.step s e = some s' → P (es ++ [e]) s')
    {es : List ε} {s : σ} (hc : M.EachStep C es) (h : M.Reaches es s) : P es s := by
  refine h.hist (P := fun fs s => M.EachStep C fs → P fs s) (fun _ => h0) ?_ hc
  intro fs e s s' hr ih he hc
  have hfs : M.EachStep C fs := fun gs x t hp => hc gs x t (hp.trans (List.prefix_append _ _))
  exact hs fs e s s' hr (hc fs e s List.prefix_rfl hr) (ih hfs) he

/-- **A safety property as a guard on the steps.** If from a safe state a step stays safe exactly
when it meets the guard `C`, a run is safe throughout exactly when all its steps meet `C`. -/
theorem always_iff_eachStep {P : σ → Prop} {C : σ → ε → Prop} (h0 : P M.init)
    (hs : ∀ es e s s', M.Reaches es s → P s → M.step s e = some s' → (P s' ↔ C s e))
    {es : List ε} {t : σ} (hrun : M.Reaches es t) : M.Always P es ↔ M.EachStep C es := by
  constructor
  · intro h fs e s hp hr
    obtain ⟨s', hs'⟩ := hrun.initial hp
    obtain ⟨s₀, hr₀, he⟩ := reaches_snoc.mp hs'
    obtain rfl := hr.unique hr₀
    exact (hs fs e s s' hr (h fs s ((List.prefix_append _ _).trans hp) hr) he).mp (h _ _ hp hs')
  · intro h fs s hp hr
    induction fs using List.reverseRecOn generalizing s with
    | nil => rw [reaches_nil.mp hr]; exact h0
    | append_singleton fs e ih =>
      obtain ⟨s₀, hr₀, he⟩ := reaches_snoc.mp hr
      exact (hs fs e s₀ s hr₀ (ih s₀ ((List.prefix_append _ _).trans hp) hr₀) he).mpr
        (h fs e s₀ hp hr₀)

/-! ## Simulation -/

/-- **Simulation.** If every step of `M` is matched, through the view `f`, by the events `g e` of
`N`, then every run of `M` is matched by a run of `N`. -/
theorem Reaches.sim {τ : Type w} {δ : Type x} {N : Machine τ δ} {f : σ → τ} {g : ε → List δ}
    (h0 : f M.init = N.init)
    (hs : ∀ s e s', M.step s e = some s' → N.run (f s) (g e) = some (f s'))
    {es : List ε} {s : σ} (h : M.Reaches es s) : N.Reaches (es.flatMap g) (f s) := by
  refine h.hist (P := fun es s => N.Reaches (es.flatMap g) (f s)) (reaches_nil.mpr h0) ?_
  intro es e s s' _ hr he
  rw [List.flatMap_append, List.flatMap_singleton, Reaches, run_append, hr]
  exact hs s e s' he

end Machine

end Vigil.Lib

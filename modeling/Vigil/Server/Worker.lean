import Mathlib.Data.Finset.Basic
import Mathlib.Data.Finset.Insert
import Vigil.Lib.Machine
import Vigil.Lib.Ticket

/-!
# The worker registry

`WorkerRegistry` tracks the ids that `POST /worker` issued and no WebSocket has
claimed yet. Issuing an id also spawns a task that removes the id after five
seconds. `office` is the registry together with these tasks, as a machine:
issues, claims and firing expiry tasks come in any order.

The ids are those `generate_id` draws (32 random bytes in base64url); the model
takes them as given.
-/

namespace Vigil.Server

open Vigil.Lib Vigil.Lib.Ticket

/-- The pending ids: the keys of the `HashMap<String, ()>`. -/
structure WorkerRegistry where
  inner : Finset String
  deriving DecidableEq

namespace WorkerRegistry

def new : WorkerRegistry := ⟨∅⟩

/-- The part of `issue` that runs at once. The expiry task it spawns is `Office.expiring`. -/
def issue (r : WorkerRegistry) (id : String) : WorkerRegistry := ⟨insert id r.inner⟩

/-- `claim`: whether the id was pending, and the registry without it. -/
def claim (r : WorkerRegistry) (id : String) : Bool × WorkerRegistry :=
  (decide (id ∈ r.inner), ⟨r.inner.erase id⟩)

/-- What the expiry task of `id` does when its sleep is over. -/
def expire (r : WorkerRegistry) (id : String) : WorkerRegistry := ⟨r.inner.erase id⟩

@[simp] theorem mem_new (id : String) : id ∉ new.inner := by simp [new]

@[simp] theorem mem_issue {r : WorkerRegistry} {id i : String} :
    i ∈ (r.issue id).inner ↔ i = id ∨ i ∈ r.inner := Finset.mem_insert

@[simp] theorem claim_fst {r : WorkerRegistry} {id : String} :
    (r.claim id).1 = true ↔ id ∈ r.inner := by simp [claim]

@[simp] theorem mem_claim {r : WorkerRegistry} {id i : String} :
    i ∈ (r.claim id).2.inner ↔ i ≠ id ∧ i ∈ r.inner := Finset.mem_erase

@[simp] theorem mem_expire {r : WorkerRegistry} {id i : String} :
    i ∈ (r.expire id).inner ↔ i ≠ id ∧ i ∈ r.inner := Finset.mem_erase

end WorkerRegistry

/-- The registry, the expiry tasks that have not fired, and what each claim so far returned. -/
structure Office where
  registry : WorkerRegistry
  expiring : List String
  answers : List (String × Bool)
  deriving DecidableEq

namespace Office

def new : Office := ⟨.new, [], []⟩

def accepted (o : Office) : List String := (o.answers.filter (·.2)).map (·.1)

def issue (o : Office) (id : String) : Office :=
  { o with registry := o.registry.issue id, expiring := id :: o.expiring }

def claim (o : Office) (id : String) : Bool × Office :=
  ((o.registry.claim id).1,
    { o with
      registry := (o.registry.claim id).2
      answers := o.answers ++ [(id, (o.registry.claim id).1)] })

/-- The expiry task of `id` fires; `none` when no such task is left. -/
def expire (o : Office) (id : String) : Option Office :=
  if id ∈ o.expiring then
    some { o with registry := o.registry.expire id, expiring := o.expiring.erase id }
  else none

def step (o : Office) : Event String → Option Office
  | .issue id => some (o.issue id)
  | .claim id => some (o.claim id).2
  | .expire id => o.expire id

end Office

def office : Machine Office (Event String) where
  init := .new
  step := Office.step

namespace Office

theorem accepted_claim {o : Office} {id : String} :
    (o.claim id).2.accepted =
      if id ∈ o.registry.inner then o.accepted ++ [id] else o.accepted := by
  by_cases h : id ∈ o.registry.inner <;> simp [accepted, claim, WorkerRegistry.claim, h]

theorem expire_eq_some {o o' : Office} {id : String} : o.expire id = some o' ↔
    id ∈ o.expiring ∧
      { o with registry := o.registry.expire id, expiring := o.expiring.erase id } = o' := by
  simp [expire]

/-- An event of one id leaves the registration of every other id as it was. -/
theorem step_frame {o o' : Office} {e : Event String} (h : o.step e = some o') {id : String}
    (hne : id ≠ e.ticket) : id ∈ o'.registry.inner ↔ id ∈ o.registry.inner := by
  cases e with
  | issue i =>
    cases h
    exact WorkerRegistry.mem_issue.trans (or_iff_right hne)
  | claim i =>
    cases h
    exact WorkerRegistry.mem_claim.trans (and_iff_right hne)
  | expire i =>
    obtain ⟨-, rfl⟩ := expire_eq_some.mp h
    exact WorkerRegistry.mem_expire.trans (and_iff_right hne)

theorem accepted_frame {o o' : Office} {e : Event String} (h : o.step e = some o') {id : String}
    (hne : id ≠ e.ticket) : id ∈ o'.accepted ↔ id ∈ o.accepted := by
  cases e with
  | issue i => cases h; exact Iff.rfl
  | claim i =>
    cases h
    rw [accepted_claim]
    split
    · rw [List.mem_append, List.mem_singleton]
      exact or_iff_left hne
    · exact Iff.rfl
  | expire i =>
    obtain ⟨-, rfl⟩ := expire_eq_some.mp h
    exact Iff.rfl

theorem expiring_frame {o o' : Office} {e : Event String} (h : o.step e = some o') {id : String}
    (hne : id ≠ e.ticket) (hid : id ∈ o'.expiring) : id ∈ o.expiring := by
  cases e with
  | issue i =>
    cases h
    exact (List.mem_cons.mp hid).resolve_left hne
  | claim i => cases h; exact hid
  | expire i =>
    obtain ⟨-, rfl⟩ := expire_eq_some.mp h
    exact List.mem_of_mem_erase hid

/-- What the office and the history say of an id agrees with its fate. -/
structure Agrees (es : List (Event String)) (o : Office) (id : String) : Prop where
  pending : id ∈ o.registry.inner ↔ fate id es = .pending
  issued : id ∈ issued es ↔ fate id es ≠ .unissued
  claimed : id ∈ o.accepted ↔ fate id es = .claimed
  gone : id ∈ expired es → fate id es = .expired ∨ fate id es = .claimed
  expired : fate id es = .expired → id ∈ expired es
  expiring : id ∈ o.expiring → id ∈ Ticket.issued es

theorem Agrees.other {es : List (Event String)} {o o' : Office} {e : Event String} {id : String}
    (ha : Agrees es o id) (h : o.step e = some o') (hne : id ≠ e.ticket) :
    Agrees (es ++ [e]) o' id := by
  have hf := fate_snoc_other (Ne.symm hne) es
  have hi := mem_issued_snoc_other hne es
  have he := mem_expired_snoc_other hne es
  constructor
  · rw [step_frame h hne, hf]; exact ha.pending
  · rw [hi, hf]; exact ha.issued
  · rw [accepted_frame h hne, hf]; exact ha.claimed
  · rw [he, hf]; exact ha.gone
  · rw [he, hf]; exact ha.expired
  · rw [hi]; exact fun hid => ha.expiring (expiring_frame h hne hid)

theorem Agrees.issue {es : List (Event String)} {o : Office} {id : String} (ha : Agrees es o id)
    (hf : id ∉ Ticket.issued es) : Agrees (es ++ [.issue id]) (o.issue id) id := by
  have hu : fate id es = .unissued := by
    by_contra h
    exact hf (ha.issued.mpr h)
  have hown : fate id (es ++ [.issue id]) = .pending := fate_snoc_own es (.issue id)
  have hacc : id ∉ o.accepted := by rw [ha.claimed, hu]; simp
  have hgone : id ∉ Ticket.expired es := by
    intro h
    have := ha.gone h
    simp [hu] at this
  constructor
  · simp [hown, Office.issue]
  · simp [hown, issued_snoc_issue]
  · rw [hown]; exact ⟨fun h => absurd h hacc, fun h => by cases h⟩
  · rw [expired_snoc_issue]; exact fun h => absurd h hgone
  · rw [hown]; exact fun h => by cases h
  · simp [issued_snoc_issue]

theorem Agrees.claim {es : List (Event String)} {o : Office} {id : String} (ha : Agrees es o id) :
    Agrees (es ++ [.claim id]) (o.claim id).2 id := by
  have hown : fate id (es ++ [.claim id]) = (fate id es).next (.claim id) :=
    fate_snoc_own es (.claim id)
  have hp := ha.pending
  have hc := ha.claimed
  constructor
  · rw [hown]
    cases hf : fate id es <;> simp [Fate.next, Office.claim]
  · rw [issued_snoc_claim, hown, ha.issued]
    cases hf : fate id es <;> simp [Fate.next]
  · rw [accepted_claim, hown]
    cases hf : fate id es <;> simp [hf] at hp hc <;> simp [hp, hc, Fate.next]
  · rw [expired_snoc_claim, hown]
    intro h
    rcases ha.gone h with hf | hf <;> simp [hf, Fate.next]
  · rw [expired_snoc_claim, hown]
    intro h
    cases hf : fate id es <;> simp [hf, Fate.next] at h
    exact ha.expired hf
  · rw [issued_snoc_claim]; exact ha.expiring

theorem Agrees.expire {es : List (Event String)} {o o' : Office} {id : String}
    (ha : Agrees es o id) (h : o.expire id = some o') : Agrees (es ++ [.expire id]) o' id := by
  obtain ⟨ht, rfl⟩ := expire_eq_some.mp h
  have hown : fate id (es ++ [.expire id]) = (fate id es).next (.expire id) :=
    fate_snoc_own es (.expire id)
  have hiss : fate id es ≠ .unissued := ha.issued.mp (ha.expiring ht)
  have hc := ha.claimed
  constructor
  · rw [hown]
    cases hf : fate id es <;> simp [Fate.next]
  · rw [issued_snoc_expire, hown, ha.issued]
    cases hf : fate id es <;> simp [Fate.next]
  · rw [hown]
    exact hc.trans (by cases hf : fate id es <;> simp [Fate.next])
  · intro _
    rw [hown]
    cases hf : fate id es <;> simp_all [Fate.next]
  · intro _
    rw [expired_snoc_expire]
    exact List.mem_append_right _ (List.mem_singleton_self id)
  · rw [issued_snoc_expire]
    exact fun hid => ha.expiring (List.mem_of_mem_erase hid)

/-- How a reachable office relates to the fates of its ids. -/
structure Inv (es : List (Event String)) (o : Office) : Prop where
  agrees : ∀ id, Agrees es o id
  once : o.accepted.Nodup

/-- A step whose own id agrees afterwards keeps the invariant. -/
theorem Inv.step {es : List (Event String)} {o o' : Office} {e : Event String} (hi : Inv es o)
    (h : o.step e = some o') (hown : Agrees (es ++ [e]) o' e.ticket) (ho : o'.accepted.Nodup) :
    Inv (es ++ [e]) o' := by
  refine ⟨fun id => ?_, ho⟩
  by_cases hid : id = e.ticket
  · exact hid ▸ hown
  · exact (hi.agrees id).other h hid

/-- An id is accepted once: after that it is no longer pending. -/
theorem Inv.nodup_claim {es : List (Event String)} {o : Office} (hi : Inv es o) (id : String) :
    (o.claim id).2.accepted.Nodup := by
  rw [accepted_claim]
  split
  · next hm =>
    have hna : id ∉ o.accepted := by
      rw [(hi.agrees id).claimed, (hi.agrees id).pending.mp hm]
      simp
    rw [← List.concat_eq_append]
    exact (List.nodup_concat _ _).mpr ⟨hna, hi.once⟩
  · exact hi.once

/-- Every run of the office with distinct ids keeps the registry in step with the fates. -/
theorem inv_of_reaches {es : List (Event String)} {o : Office} (h : office.Reaches es o)
    (hd : (Ticket.issued es).Nodup) : Inv es o := by
  refine h.hist (P := fun es o => (Ticket.issued es).Nodup → Inv es o) (fun _ => ?_) ?_ hd
  · refine ⟨fun id => ?_, List.nodup_nil⟩
    constructor <;> simp [office, new, fate, Ticket.issued, Ticket.expired, accepted]
  · intro es e o o' _ ih he hd
    have hi := ih (nodup_issued_of_snoc hd)
    cases e with
    | issue id =>
      have hf : id ∉ Ticket.issued es := by
        rw [issued_snoc_issue] at hd
        exact fun hm => List.disjoint_of_nodup_append hd hm (List.mem_singleton.mpr rfl)
      cases he
      exact hi.step rfl ((hi.agrees id).issue hf) hi.once
    | claim id =>
      cases he
      exact hi.step rfl (hi.agrees id).claim (hi.nodup_claim id)
    | expire id =>
      refine hi.step he ((hi.agrees id).expire he) ?_
      obtain ⟨-, rfl⟩ := expire_eq_some.mp he
      exact hi.once

end Office

/-- **Worker tokens are single-use and die at expiry.** -/
theorem worker_tokens_single_use {es : List (Event String)} {o : Office}
    (h : office.Reaches es o) (hd : (issued es).Nodup) :
    (∀ id, id ∈ o.registry.inner ↔ id ∈ issued es ∧ id ∉ o.accepted ∧ id ∉ expired es) ∧
    (∀ id, (o.registry.claim id).1 = true ↔ id ∈ o.registry.inner) ∧
    o.accepted.Nodup ∧
    (∀ id ∈ o.accepted, id ∈ issued es) ∧
    (∀ id ∈ expired es, (o.registry.claim id).1 = false) ∧
    (∀ e o' id, o.step e = some o' → id ≠ e.ticket →
      (id ∈ o'.registry.inner ↔ id ∈ o.registry.inner)) := by
  have hi := Office.inv_of_reaches h hd
  refine ⟨fun id => ?_, fun id => WorkerRegistry.claim_fst, hi.once, fun id ha => ?_,
    fun id he => ?_, fun e o' id hs hne => Office.step_frame hs hne⟩
  · have hid := hi.agrees id
    rw [hid.pending, hid.issued, hid.claimed]
    constructor
    · intro hp
      refine ⟨by rw [hp]; decide, by rw [hp]; decide, fun he => ?_⟩
      rcases hid.gone he with hf | hf <;> rw [hp] at hf <;> cases hf
    · rintro ⟨hu, hc, he⟩
      cases hf : fate id es with
      | unissued => exact absurd hf hu
      | pending => rfl
      | claimed => exact absurd hf hc
      | expired => exact absurd (hid.expired hf) he
  · rw [(hi.agrees id).issued, (hi.agrees id).claimed.mp ha]; decide
  · rw [Bool.eq_false_iff, Ne, WorkerRegistry.claim_fst, (hi.agrees id).pending]
    rcases (hi.agrees id).gone he with hf | hf <;> rw [hf] <;> decide

/-- Of two issued tokens, the claimed one is spent and the expired one is dead. -/
theorem worker_tokens_single_use_run :
    let o : Office := ⟨⟨∅⟩, ["a"], [("a", true)]⟩
    office.Reaches [.issue "a", .issue "b", .claim "a", .expire "b"] o ∧
      o.accepted.Nodup ∧ (o.registry.claim "b").1 = false := by
  have hr : office.Reaches [.issue "a", .issue "b", .claim "a", .expire "b"]
      ⟨⟨∅⟩, ["a"], [("a", true)]⟩ := rfl
  have h := worker_tokens_single_use hr (by decide)
  exact ⟨hr, h.2.2.1, h.2.2.2.2.1 "b" (by decide)⟩

end Vigil.Server

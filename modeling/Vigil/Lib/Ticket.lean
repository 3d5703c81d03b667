import Mathlib.Data.List.Basic
import Mathlib.Data.List.Nodup

/-!
# Single-use tickets

The life of one ticket: it is issued, and then either claimed or expired,
whichever comes first. `fate i es` folds the events of `es` that concern `i`
through this life cycle; the events of other tickets do not enter it, so the
fates of a whole office of tickets are independent by construction.
-/

namespace Vigil.Lib.Ticket

variable {ι : Type*}

inductive Event (ι : Type*) where
  | issue (i : ι)
  | claim (i : ι)
  | expire (i : ι)

def Event.ticket : Event ι → ι
  | issue i | claim i | expire i => i

inductive Fate where
  | unissued
  | pending
  | claimed
  | expired
  deriving DecidableEq

/-- The life cycle of one ticket under its own events. -/
def Fate.next : Fate → Event ι → Fate
  | _, .issue _ => pending
  | pending, .claim _ => claimed
  | pending, .expire _ => expired
  | f, _ => f

def issued (es : List (Event ι)) : List ι :=
  es.filterMap fun
    | .issue i => some i
    | _ => none

def expired (es : List (Event ι)) : List ι :=
  es.filterMap fun
    | .expire i => some i
    | _ => none

section
variable [DecidableEq ι]

def fate (i : ι) (es : List (Event ι)) : Fate :=
  es.foldl (fun f e => if e.ticket = i then f.next e else f) .unissued

theorem fate_snoc (i : ι) (es : List (Event ι)) (e : Event ι) :
    fate i (es ++ [e]) = if e.ticket = i then (fate i es).next e else fate i es := by
  simp [fate, List.foldl_append]

theorem fate_snoc_own (es : List (Event ι)) (e : Event ι) :
    fate e.ticket (es ++ [e]) = (fate e.ticket es).next e := by
  rw [fate_snoc, if_pos rfl]

/-- **Independence.** An event of one ticket leaves every other ticket's fate alone. -/
theorem fate_snoc_other {i : ι} {e : Event ι} (h : e.ticket ≠ i) (es : List (Event ι)) :
    fate i (es ++ [e]) = fate i es := by
  rw [fate_snoc, if_neg h]

end

theorem issued_snoc_issue (es : List (Event ι)) (i : ι) :
    issued (es ++ [.issue i]) = issued es ++ [i] := by
  simp [issued]

theorem issued_snoc_claim (es : List (Event ι)) (i : ι) :
    issued (es ++ [.claim i]) = issued es := by
  simp [issued]

theorem issued_snoc_expire (es : List (Event ι)) (i : ι) :
    issued (es ++ [.expire i]) = issued es := by
  simp [issued]

theorem expired_snoc_issue (es : List (Event ι)) (i : ι) :
    expired (es ++ [.issue i]) = expired es := by
  simp [expired]

theorem expired_snoc_claim (es : List (Event ι)) (i : ι) :
    expired (es ++ [.claim i]) = expired es := by
  simp [expired]

theorem expired_snoc_expire (es : List (Event ι)) (i : ι) :
    expired (es ++ [.expire i]) = expired es ++ [i] := by
  simp [expired]

theorem mem_issued_snoc_other {i : ι} {e : Event ι} (h : i ≠ e.ticket) (es : List (Event ι)) :
    i ∈ issued (es ++ [e]) ↔ i ∈ issued es := by
  cases e with
  | issue j =>
    rw [issued_snoc_issue, List.mem_append, List.mem_singleton]
    exact or_iff_left h
  | claim j => rw [issued_snoc_claim]
  | expire j => rw [issued_snoc_expire]

theorem mem_expired_snoc_other {i : ι} {e : Event ι} (h : i ≠ e.ticket) (es : List (Event ι)) :
    i ∈ expired (es ++ [e]) ↔ i ∈ expired es := by
  cases e with
  | issue j => rw [expired_snoc_issue]
  | claim j => rw [expired_snoc_claim]
  | expire j =>
    rw [expired_snoc_expire, List.mem_append, List.mem_singleton]
    exact or_iff_left h

theorem nodup_issued_of_snoc {es : List (Event ι)} {e : Event ι}
    (h : (issued (es ++ [e])).Nodup) : (issued es).Nodup := by
  rw [issued, List.filterMap_append] at h
  exact h.of_append_left

end Vigil.Lib.Ticket

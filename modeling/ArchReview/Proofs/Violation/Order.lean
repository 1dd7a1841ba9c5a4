import ArchReview.Proofs.Path.Order
import ArchReview.Rule.Recognition

/-!
# The orders of a report

Violations and recognised patterns are sorted by several keys, one after the other.  Each key is
compared by an order, so the whole comparison is one (`Std.TransCmp`).  What ties in it lies in one
file (`Violation.same_of_tie`, `Recognition.same_of_tie`).

Numbering violations changes nothing about them but their ids (`Violation.map_number`).
-/

namespace ArchReview
open Std

/-! ### Violations -/

namespace Violation

/-- An absent line comes after all others. -/
theorem compareLines_eq (a b : Option Nat) :
    compareLines a b =
      compareLex (compareOn fun l => l.isNone.toNat) (compareOn (·.getD 0)) a b := by
  cases a <;> cases b <;> rfl

instance : TransCmp compareLines := by
  rw [funext₂ compareLines_eq]
  infer_instance

instance : TransCmp compare := by
  have severity : TransCmp fun v w : Violation =>
      Ord.compare w.severity.rank v.severity.rank :=
    @TransCmp.opposite _ (compareOn fun v : Violation => v.severity.rank) _
  exact transCmp_then severity <| transCmp_then (transCmp_comap path) <|
    transCmp_then (transCmp_comap line) <| transCmp_then (transCmp_comap rule) <|
    transCmp_then (transCmp_comap title) (transCmp_comap description)

theorem le_trans (u v w : Violation) (huv : u.le v = true) (hvw : v.le w = true) : u.le w = true :=
  cmp_ne_gt_trans compare u v w huv hvw

theorem le_total (v w : Violation) : (v.le w || w.le v) = true := cmp_ne_gt_total compare v w

/-- Violations that tie are violations of one file. -/
theorem same_of_tie (v w : Violation) (hvw : v.le w = true) (hwv : w.le v = true) :
    v.path.same w.path = true := by
  have h : compare v w = .eq := cmp_eq_of_ne_gt compare hvw hwv
  rw [compare, Ordering.then_eq_eq, Ordering.then_eq_eq] at h
  exact Path.compare_eq_iff.mp h.2.1

/-- A violation without its number. -/
def unnumbered (v : Violation) : Violation := { v with id := "" }

/-- What does not depend on the id of a violation is kept when violations are numbered. -/
theorem map_number {α : Type} {f : Violation → α} (hf : ∀ v id, f { v with id := id } = f v)
    (vs : List Violation) (n : Nat) : (number n vs).map f = vs.map f := by
  induction vs generalizing n with
  | nil => rfl
  | cons v vs ih => rw [number, List.map_cons, List.map_cons, hf, ih]

end Violation

/-! ### Patterns -/

namespace Recognition

/-- By kind, file, line and subject. -/
def compareFindings (a b : PatternFinding) : Ordering :=
  (compare a.kind.rank b.kind.rank).then <|
  (a.path.compare b.path).then <|
  (compare a.line b.line).then <|
  Text.compareStrings a.subject b.subject

instance : TransCmp compareFindings := by
  have kind : TransCmp fun a b : PatternFinding => compare a.kind.rank b.kind.rank :=
    inferInstanceAs (TransCmp (compareOn fun a : PatternFinding => a.kind.rank))
  have line : TransCmp fun a b : PatternFinding => compare a.line b.line :=
    inferInstanceAs (TransCmp (compareOn PatternFinding.line))
  exact transCmp_then kind <| transCmp_then (transCmp_comap PatternFinding.path) <|
    transCmp_then line (transCmp_comap PatternFinding.subject)

theorem le_trans (a b c : PatternFinding) (hab : le a b = true) (hbc : le b c = true) :
    le a c = true :=
  cmp_ne_gt_trans compareFindings a b c hab hbc

theorem le_total (a b : PatternFinding) : (le a b || le b a) = true :=
  cmp_ne_gt_total compareFindings a b

/-- Patterns that tie are patterns of one file. -/
theorem same_of_tie (a b : PatternFinding) (hab : le a b = true) (hba : le b a = true) :
    a.path.same b.path = true := by
  have h : compareFindings a b = .eq := cmp_eq_of_ne_gt compareFindings hab hba
  rw [compareFindings, Ordering.then_eq_eq, Ordering.then_eq_eq] at h
  exact Path.compare_eq_iff.mp h.2.1

end Recognition

end ArchReview

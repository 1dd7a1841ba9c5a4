import ArchReview.Graph.Cycles
import Mathlib.Data.List.Basic

/-!
# The order of paths

Texts, components, paths and lists of paths are compared by orders: every comparison here is
oriented and transitive (`Std.TransCmp`), so that sorting by it makes sense.  Texts and components
are equal when they compare equal; two paths compare equal exactly when they are the same path,
perhaps spelled differently (`Path.compare_eq_iff`).

The list comparisons are instances of the lexicographic comparison of lists, and a component is
compared by its rank first and then by its text.
-/

namespace ArchReview
open Std

/-- A comparison pulled back along a function. -/
theorem transCmp_comap {α β : Type} {cmp : β → β → Ordering} [TransCmp cmp] (f : α → β) :
    TransCmp fun a b => cmp (f a) (f b) where
  eq_swap {a b} := @OrientedCmp.eq_swap _ cmp _ (f a) (f b)
  isLE_trans {a b c} := @TransCmp.isLE_trans _ cmp _ (f a) (f b) (f c)

/-- One comparison, and then another. -/
theorem transCmp_then {α : Type} {cmp cmp' : α → α → Ordering} (h : TransCmp cmp)
    (h' : TransCmp cmp') : TransCmp fun a b => (cmp a b).then (cmp' a b) :=
  inferInstanceAs (TransCmp (compareLex cmp cmp'))

section
variable {α : Type} (cmp : α → α → Ordering)

theorem cmp_ne_gt_iff {o : Ordering} : (o != .gt) = true ↔ o.isLE = true := by
  cases o <;> decide

theorem cmp_ne_gt_trans [TransCmp cmp] (a b c : α) (hab : (cmp a b != .gt) = true)
    (hbc : (cmp b c != .gt) = true) : (cmp a c != .gt) = true :=
  cmp_ne_gt_iff.mpr (TransCmp.isLE_trans (cmp_ne_gt_iff.mp hab) (cmp_ne_gt_iff.mp hbc))

theorem cmp_ne_gt_total [OrientedCmp cmp] (a b : α) :
    (cmp a b != .gt || cmp b a != .gt) = true := by
  rw [@OrientedCmp.eq_swap _ cmp _ b a]
  cases cmp a b <;> decide

/-- Elements that are not above each other compare equal. -/
theorem cmp_eq_of_ne_gt [OrientedCmp cmp] {a b : α} (hab : (cmp a b != .gt) = true)
    (hba : (cmp b a != .gt) = true) : cmp a b = .eq :=
  OrientedCmp.isLE_antisymm (cmp_ne_gt_iff.mp hab) (cmp_ne_gt_iff.mp hba)

/-- Sorting by a comparison sorts. -/
theorem pairwise_mergeSort_cmp [TransCmp cmp] (l : List α) :
    (l.mergeSort fun a b => cmp a b != .gt).Pairwise fun a b => (cmp a b != .gt) = true :=
  List.pairwise_mergeSort (cmp_ne_gt_trans cmp) (cmp_ne_gt_total cmp) l

variable {cmp}

theorem ne_of_cmp_lt [ReflCmp cmp] {a b : α} (h : cmp a b = .lt) : a ≠ b := by
  rintro rfl
  rw [@ReflCmp.compare_self _ cmp] at h
  cases h

/-- Strictly ascending lists with the same elements are equal. -/
theorem eq_of_pairwise_lt [TransCmp cmp] {l m : List α} (hl : l.Pairwise fun a b => cmp a b = .lt)
    (hm : m.Pairwise fun a b => cmp a b = .lt) (h : ∀ a, a ∈ l ↔ a ∈ m) : l = m := by
  have hperm : l.Perm m :=
    (List.perm_ext_iff_of_nodup (hl.imp ne_of_cmp_lt) (hm.imp ne_of_cmp_lt)).mpr h
  refine hperm.eq_of_pairwise (fun a b _ _ hab hba => ?_) hl hm
  exact absurd rfl (ne_of_cmp_lt (TransCmp.lt_trans hab hba))

/-- No two elements of a strictly ascending list compare equal. -/
theorem eq_of_cmp_eq [OrientedCmp cmp] {l : List α} (hl : l.Pairwise fun a b => cmp a b = .lt)
    {a b : α} (ha : a ∈ l) (hb : b ∈ l) (h : cmp a b = .eq) : a = b := by
  refine List.Pairwise.forall_of_forall_of_flip (R := fun a b => cmp a b = .eq → a = b)
    (fun _ _ _ => rfl) (hl.imp fun hlt e => ?_) (hl.imp fun hlt e => ?_) ha hb h
  · rw [hlt] at e
    cases e
  · rw [OrientedCmp.eq_symm e] at hlt
    cases hlt

/-- Sorting the elements of a strictly ascending list gives that list. -/
theorem mergeSort_eq_of_perm [TransCmp cmp] {l m : List α} (h : m.Perm l)
    (hl : l.Pairwise fun a b => cmp a b = .lt) : (m.mergeSort fun a b => cmp a b != .gt) = l := by
  have perm := (List.mergeSort_perm m fun a b => cmp a b != .gt).trans h
  refine perm.eq_of_pairwise (fun a b ha hb hab hba => ?_) (pairwise_mergeSort_cmp cmp m)
    (hl.imp fun hlt => by rw [hlt]; rfl)
  exact eq_of_cmp_eq hl (perm.mem_iff.mp ha) hb (cmp_eq_of_ne_gt cmp hab hba)

end

/-! ### Texts -/

namespace Text

theorem compareChars_eq_compareLex :
    ∀ a b : List Char, compareChars a b = List.compareLex (compareOn Char.toNat) a b
  | [], [] | [], _ :: _ | _ :: _, [] => rfl
  | a :: as, b :: bs => by
      rw [compareChars, List.compareLex_cons_cons, compareChars_eq_compareLex as bs]
      rfl

instance : TransCmp compareChars := by
  rw [funext₂ compareChars_eq_compareLex]
  infer_instance

instance lawfulEqCmp_toNat : LawfulEqCmp (compareOn Char.toNat) where
  eq_of_compare h := Char.toNat_inj.mp (@LawfulEqOrd.eq_of_compare Nat _ _ _ _ h)

instance : LawfulEqCmp compareChars := by
  rw [funext₂ compareChars_eq_compareLex]
  infer_instance

instance : TransCmp compareStrings := transCmp_comap String.toList

instance : LawfulEqCmp compareStrings where
  eq_of_compare h := String.toList_injective (@LawfulEqCmp.eq_of_compare _ compareChars _ _ _ h)

end Text

/-! ### Components -/

namespace Component

/-- The place of a component among the kinds of components. -/
def rank : Component → Nat
  | root    => 0
  | current => 1
  | parent  => 2
  | name _  => 3

theorem compare_eq_compareLex (a b : Component) :
    compare a b =
      compareLex (compareOn rank) (fun a b => Text.compareStrings a.text b.text) a b := by
  cases a <;> cases b <;> rfl

instance : TransCmp Component.compare := by
  rw [funext₂ compare_eq_compareLex]
  have := @transCmp_comap _ _ Text.compareStrings _ text
  infer_instance

instance : LawfulEqCmp Component.compare where
  eq_of_compare {a b} h := by
    rw [compare_eq_compareLex, compareLex_eq_eq] at h
    have hr : a.rank = b.rank := LawfulEqOrd.eq_of_compare h.1
    have ht : a.text = b.text := @LawfulEqCmp.eq_of_compare _ Text.compareStrings _ _ _ h.2
    cases a <;> cases b <;> simp_all [rank, text]

end Component

/-! ### Paths -/

namespace Path

theorem compareComponents_eq_compareLex :
    ∀ a b : List Component, compareComponents a b = List.compareLex Component.compare a b
  | [], [] | [], _ :: _ | _ :: _, [] => rfl
  | a :: as, b :: bs => by
      rw [compareComponents, List.compareLex_cons_cons, compareComponents_eq_compareLex as bs]

instance : TransCmp compareComponents := by
  rw [funext₂ compareComponents_eq_compareLex]
  infer_instance

instance : LawfulEqCmp compareComponents := by
  rw [funext₂ compareComponents_eq_compareLex]
  infer_instance

instance : TransCmp Path.compare := transCmp_comap components

theorem same_iff {p q : Path} : p.same q = true ↔ p.components = q.components := by
  simp [same]

/-- Paths compare equal when they are the same, however they are spelled. -/
theorem compare_eq_iff {p q : Path} : p.compare q = .eq ↔ p.same q = true := by
  rw [same_iff]
  exact @LawfulEqCmp.compare_eq_iff_eq _ compareComponents _ _ _

theorem same_refl (p : Path) : p.same p = true := same_iff.mpr rfl

theorem le_iff {p q : Path} : p.le q = true ↔ (p.compare q).isLE = true := cmp_ne_gt_iff

theorem le_refl (p : Path) : p.le p = true := le_iff.mpr ReflCmp.isLE_rfl

theorem le_trans (p q r : Path) (hpq : p.le q = true) (hqr : q.le r = true) : p.le r = true :=
  cmp_ne_gt_trans Path.compare p q r hpq hqr

theorem le_total (p q : Path) : (p.le q || q.le p) = true := cmp_ne_gt_total Path.compare p q

theorem le_of_lt {p q : Path} (h : p.compare q = .lt) : p.le q = true := by
  rw [le, h]
  rfl

theorem le_of_not_lt {p q : Path} (h : ¬ q.compare p = .lt) : p.le q = true := by
  rw [le, @OrientedCmp.eq_swap _ Path.compare _ p q]
  cases e : q.compare p with
  | lt => exact absurd e h
  | eq | gt => rfl

theorem lt_or_same_of_le {p q : Path} (h : p.le q = true) :
    p.compare q = .lt ∨ p.same q = true := by
  rw [← compare_eq_iff]
  rw [le] at h
  cases e : p.compare q with
  | lt => exact Or.inl rfl
  | eq => exact Or.inr rfl
  | gt => rw [e] at h; exact absurd h (by decide)

end Path

/-! ### Lists of paths -/

theorem comparePathLists_eq_compareLex :
    ∀ c d : List Path, comparePathLists c d = List.compareLex Path.compare c d
  | [], [] | [], _ :: _ | _ :: _, [] => rfl
  | p :: ps, q :: qs => by
      rw [comparePathLists, List.compareLex_cons_cons, comparePathLists_eq_compareLex ps qs]

instance : TransCmp comparePathLists := by
  rw [funext₂ comparePathLists_eq_compareLex]
  infer_instance

end ArchReview

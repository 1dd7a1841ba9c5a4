import Mathlib.Data.List.Basic

/-!
# Stable sorting

`mergeSort` keeps the order of elements that tie.  So two lists sort alike as soon as each element
finds the same elements tied with it, in the same order, in both (`mergeSort_eq_of_ties`); nothing
else about the order of the lists matters.  For the same reason elements may be left out before
sorting or after it (`mergeSort_filter`).

Lists made of blocks, one for each of some sources, have this property under any order of the
sources if no two blocks hold elements that tie (`flatMap_eq_of_perm`).
-/

namespace ArchReview

section
variable {α : Type} {le : α → α → Bool}

/-- The elements of a list that tie with `a`, in their order. -/
def ties (le : α → α → Bool) (a : α) (l : List α) : List α := l.filter fun b => le a b && le b a

theorem mem_ties {a b : α} {l : List α} :
    b ∈ ties le a l ↔ b ∈ l ∧ le a b = true ∧ le b a = true := by
  simp [ties]

theorem ties_append (a : α) (l m : List α) : ties le a (l ++ m) = ties le a l ++ ties le a m :=
  List.filter_append ..

theorem ties_flatMap {β : Type} (a : α) (f : β → List α) (l : List β) :
    ties le a (l.flatMap f) = l.flatMap fun b => ties le a (f b) :=
  List.filter_flatMap ..

theorem ties_filter (a : α) (p : α → Bool) (l : List α) :
    ties le a (l.filter p) = (ties le a l).filter p :=
  List.filter_comm ..

/-- A list whose elements with a property come first is made of them and the rest. -/
theorem filter_append_filter_not_of_pairwise {p : α → Bool} {l : List α}
    (h : l.Pairwise fun a b => p b = true → p a = true) :
    l.filter p ++ l.filter (fun a => !p a) = l := by
  induction h with
  | nil => rfl
  | @cons a l ha _ ih =>
      by_cases hpa : p a = true
      · simp [hpa, ih]
      · have none : l.filter p = [] := List.filter_eq_nil_iff.mpr fun b hb hpb => hpa (ha b hb hpb)
        rw [none, List.nil_append] at ih
        simp [hpa, none, ih]

/-- In a sorted list, the elements with a property that is kept downwards come first. -/
theorem isPrefix_filter_of_pairwise {p : α → Bool}
    (hp : ∀ a b, le a b = true → p b = true → p a = true) {l : List α}
    (h : l.Pairwise fun a b => le a b = true) : l.filter p <+: l :=
  ⟨_, filter_append_filter_not_of_pairwise (h.imp (hp _ _))⟩

variable (le_trans : ∀ a b c, le a b = true → le b c = true → le a c = true)
  (le_total : ∀ a b, (le a b || le b a) = true)
include le_trans le_total

/-- **Sorting keeps the order of elements that tie.** -/
theorem ties_mergeSort (a : α) (l : List α) : ties le a (l.mergeSort le) = ties le a l := by
  have hsorted : (ties le a l).Pairwise fun b c => le b c = true :=
    List.pairwise_of_forall_mem_list fun b hb c hc =>
      le_trans b a c (mem_ties.mp hb).2.2 (mem_ties.mp hc).2.1
  have hsub : (ties le a l).Sublist (l.mergeSort le) :=
    List.sublist_mergeSort le_trans le_total hsorted List.filter_sublist
  have hties : (ties le a l).Sublist (ties le a (l.mergeSort le)) := by
    have h := hsub.filter fun b => le a b && le b a
    simpa [ties, List.filter_filter] using h
  have hlen : (ties le a l).length = (ties le a (l.mergeSort le)).length :=
    ((List.mergeSort_perm l le).filter _).length_eq.symm
  exact (hties.eq_of_length hlen).symm

omit le_trans in
/-- Sorted lists in which every element has the same ties are equal. -/
theorem eq_of_ties : ∀ {l m : List α}, l.Pairwise (fun a b => le a b = true) →
    m.Pairwise (fun a b => le a b = true) → (∀ a, ties le a l = ties le a m) → l = m
  | [], m, _, _, h => by
      refine (List.eq_nil_iff_forall_not_mem.mpr fun b hb => ?_).symm
      have hb' : b ∈ ties le b m := mem_ties.mpr ⟨hb, by simpa using le_total b b⟩
      rw [← h b] at hb'
      cases hb'
  | a :: l, [], _, _, h => by
      have ha : a ∈ ties le a (a :: l) :=
        mem_ties.mpr ⟨List.mem_cons_self, by simpa using le_total a a⟩
      rw [h a] at ha
      cases ha
  | a :: l, b :: m, hl, hm, h => by
      have refl : ∀ c, le c c = true := fun c => by simpa using le_total c c
      have first : ∀ {c d : α} {n : List α}, (c :: n).Pairwise (fun a b => le a b = true) →
          d ∈ c :: n → le c d = true := fun {c d n} hn hd => by
        rcases List.mem_cons.mp hd with rfl | hd
        · exact refl d
        · exact (List.pairwise_cons.mp hn).1 d hd
      have mem : ∀ {c : α}, c ∈ a :: l ↔ c ∈ b :: m := fun {c} => by
        have hc := congrArg (c ∈ ·) (h c)
        simpa [mem_ties, refl] using hc
      -- both lists start with the first of the elements that tie with `a`
      have hab : (le a b && le b a) = true := by
        rw [first hl (mem.mpr List.mem_cons_self), first hm (mem.mp List.mem_cons_self)]
        rfl
      have ha := h a
      rw [ties, ties, List.filter_cons, if_pos (by simp [refl]), List.filter_cons, if_pos hab] at ha
      obtain rfl : a = b := (List.cons.inj ha).1
      have ih : l = m := eq_of_ties hl.tail hm.tail fun c => by
        have hc := h c
        rw [ties, ties, List.filter_cons, List.filter_cons] at hc
        split at hc
        · exact (List.cons.inj hc).2
        · exact hc
      rw [ih]

/-- **Lists in which every element has the same ties are sorted alike.** -/
theorem mergeSort_eq_of_ties {l m : List α} (h : ∀ a, ties le a l = ties le a m) :
    l.mergeSort le = m.mergeSort le :=
  eq_of_ties le_total (List.pairwise_mergeSort le_trans le_total l)
    (List.pairwise_mergeSort le_trans le_total m) fun a => by
      rw [ties_mergeSort le_trans le_total, ties_mergeSort le_trans le_total, h a]

/-- **Leaving elements out before or after sorting gives the same.** -/
theorem mergeSort_filter (p : α → Bool) (l : List α) :
    (l.filter p).mergeSort le = (l.mergeSort le).filter p :=
  eq_of_ties le_total (List.pairwise_mergeSort le_trans le_total _)
    ((List.pairwise_mergeSort le_trans le_total l).filter p) fun a => by
      rw [ties_mergeSort le_trans le_total, ties_filter, ties_filter,
        ties_mergeSort le_trans le_total]

end

/-- The blocks of permuted sources make up the same list, if of any two at most one is not empty. -/
theorem flatMap_eq_of_perm {α β : Type} {f : α → List β} {l m : List α} (h : l.Perm m)
    (hf : l.Pairwise fun a b => f a = [] ∨ f b = []) : l.flatMap f = m.flatMap f := by
  induction h with
  | nil => rfl
  | cons a _ ih => rw [List.flatMap_cons, List.flatMap_cons, ih (List.pairwise_cons.mp hf).2]
  | swap a b l =>
      rw [List.flatMap_cons, List.flatMap_cons, List.flatMap_cons, List.flatMap_cons]
      rcases (List.pairwise_cons.mp hf).1 a List.mem_cons_self with e | e <;> simp [e]
  | trans h₁ _ ih₁ ih₂ =>
      exact (ih₁ hf).trans (ih₂ ((h₁.pairwise_iff Or.symm).mp hf))

end ArchReview

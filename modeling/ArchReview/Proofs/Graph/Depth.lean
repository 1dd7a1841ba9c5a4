import ArchReview.Graph.Chains
import ArchReview.Proofs.Path.Order
import ArchReview.Proofs.Sorting
import Mathlib.Data.List.Infix

/-!
# Chains above a depth

Long chains are told from the longest down.  A higher limit leaves out the shorter ones, so it cuts
the sorted chains short; what is told of them depends on the ones before only.

**Depth** (`deepChains_isPrefix`).  The chains above a greater depth are the first of the chains
above a smaller one.
-/

namespace ArchReview.Graph
open Std

/-! ### The order of chains -/

/-- Longer chains first, then by their first file. -/
def compareChains (c d : List Path) : Ordering :=
  (compare d.length c.length).then (comparePathLists (c.take 1) (d.take 1))

instance : TransCmp compareChains := by
  have length : TransCmp fun c d : List Path => compare d.length c.length :=
    @TransCmp.opposite _ (compareOn fun c : List Path => c.length) _
  exact transCmp_then length (transCmp_comap (List.take 1))

/-- Chains of different length are never compared by their first files, so it does not matter that
an empty one has none. -/
theorem chainLe_eq (c d : List Path) : chainLe c d = (compareChains c d != .gt) := by
  unfold chainLe compareChains
  cases c with
  | nil =>
      cases d with
      | nil => rfl
      | cons q d =>
          have h : compare (q :: d).length ([] : List Path).length = .gt :=
            Nat.compare_eq_gt.mpr (Nat.succ_pos _)
          rw [h]
          rfl
  | cons p c =>
      cases d with
      | nil =>
          have h : compare ([] : List Path).length (p :: c).length = .lt :=
            Nat.compare_eq_lt.mpr (Nat.succ_pos _)
          rw [h]
          rfl
      | cons q d =>
          simp only [List.head?_cons, List.take_succ_cons, List.take_zero, comparePathLists,
            Ordering.then_eq]

theorem chainLe_trans (a b c : List Path) (hab : chainLe a b = true) (hbc : chainLe b c = true) :
    chainLe a c = true := by
  rw [chainLe_eq] at *
  exact cmp_ne_gt_trans compareChains a b c hab hbc

theorem chainLe_total (c d : List Path) : (chainLe c d || chainLe d c) = true := by
  rw [chainLe_eq, chainLe_eq]
  exact cmp_ne_gt_total compareChains c d

/-- A chain that comes first is not shorter. -/
theorem length_le_of_chainLe {c d : List Path} (h : chainLe c d = true) : d.length ≤ c.length := by
  by_contra hlt
  have hgt : compare d.length c.length = .gt := Nat.compare_eq_gt.mpr (Nat.lt_of_not_le hlt)
  rw [chainLe, hgt] at h
  cases h

/-! ### Chains that are told -/

/-- Whether a chain is told depends only on the chains before it. -/
theorem uncovered_append (covered : List Path) (chains more : List (List Path)) :
    uncovered covered chains <+: uncovered covered (chains ++ more) := by
  induction chains generalizing covered with
  | nil => exact List.nil_prefix
  | cons chain chains ih =>
      cases chain with
      | nil => exact ih covered
      | cons first rest =>
          simp only [List.cons_append, uncovered]
          split
          · exact ih covered
          · exact (List.prefix_cons_inj _).mpr (ih _)

/-- **Depth.**  The chains above a greater depth are the first of those above a smaller one. -/
theorem deepChains_isPrefix (g : Graph) {depth deeper : Nat} (h : depth ≤ deeper) :
    g.deepChains deeper <+: g.deepChains depth := by
  have shorter : (g.longestChains.filter fun chain => chain.length - 1 > deeper) =
      (g.longestChains.filter fun chain => chain.length - 1 > depth).filter
        fun chain => chain.length - 1 > deeper := by
    rw [List.filter_filter]
    refine List.filter_congr fun chain _ => ?_
    rw [← Bool.decide_and, decide_eq_decide]
    omega
  -- sorted by length, the chains that are deep enough come first
  have first :
      (g.longestChains.filter fun chain => chain.length - 1 > deeper).mergeSort chainLe <+:
        (g.longestChains.filter fun chain => chain.length - 1 > depth).mergeSort chainLe := by
    rw [shorter, mergeSort_filter chainLe_trans chainLe_total]
    refine isPrefix_filter_of_pairwise (fun c d hle hd => ?_)
      (List.pairwise_mergeSort chainLe_trans chainLe_total _)
    have hlen := length_le_of_chainLe hle
    simp only [decide_eq_true_eq] at hd ⊢
    omega
  obtain ⟨more, e⟩ := first
  have told := uncovered_append []
    ((g.longestChains.filter fun chain => chain.length - 1 > deeper).mergeSort chainLe) more
  rw [e] at told
  exact List.IsPrefix.take told maxChains

end ArchReview.Graph

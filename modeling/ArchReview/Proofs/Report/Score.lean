import ArchReview.Proofs.Report.Printed
import Mathlib.Algebra.BigOperators.Group.List.Basic
import Mathlib.Algebra.GroupWithZero.Nat

/-!
# What the score counts

A review counts its violations by severity and by category, and takes the weight of each off a
hundred points.

**The score is accounted for** (`Metrics.compute_accounts`).  The counts of either kind add up to
the number of violations, and the score follows from the counts by severity.  It does not depend on
the order of the violations.  One more violation, wherever it is put, costs its weight as far as
there are points left, so the score never rises.

The weights are added up in words of 32 bits, and all this holds as long as their sum fits into
one: `deducted` is the cost modulo `2 ^ 32` (`toNat_deducted`).  A sum that fails instead of
wrapping around goes well exactly then (`wordCost?_eq`), and gives the same score.
-/

namespace ArchReview

/-! ### Counts by key -/

section
variable {α κ : Type} [DecidableEq κ]

/-- How often a key is counted.  Keys without an entry do not occur. -/
def countOf (counts : List (κ × Nat)) (key : κ) : Nat := (counts.lookup key).getD 0

def countTotal (counts : List (κ × Nat)) : Nat := (counts.map Prod.snd).sum

theorem lookup_map_self {keys : List κ} {count : κ → Nat} {k : κ} (h : k ∈ keys) :
    (keys.map fun j => (j, count j)).lookup k = some (count k) := by
  induction keys with
  | nil => cases h
  | cons j keys ih =>
      rw [List.map_cons, List.lookup_cons]
      by_cases hj : k = j
      · simp [hj]
      · rw [beq_false_of_ne hj]
        exact ih (List.mem_of_ne_of_mem hj h)

/-- Keys that are counted zero times can be left out. -/
theorem countOf_filter_pos (counts : List (κ × Nat)) (distinct : (counts.map Prod.fst).Nodup)
    (k : κ) : countOf (counts.filter fun e => e.2 > 0) k = countOf counts k := by
  induction counts with
  | nil => rfl
  | cons e counts ih =>
      obtain ⟨new, distinct⟩ := List.nodup_cons.mp distinct
      have ih := ih distinct
      obtain ⟨j, n⟩ := e
      unfold countOf at ih ⊢
      by_cases hn : n > 0
      · rw [List.filter_cons_of_pos (by simpa using hn), List.lookup_cons, List.lookup_cons]
        split
        · rfl
        · exact ih
      · rw [List.filter_cons_of_neg (by simpa using hn), List.lookup_cons, ih]
        by_cases hk : k = j
        · subst hk
          have absent : counts.lookup k = none := by
            refine List.lookup_eq_none_iff.mpr fun e he => bne_iff_ne.mpr fun hkey => ?_
            exact new (List.mem_map.mpr ⟨e, he, hkey.symm⟩)
          simp [absent]
          omega
        · rw [beq_false_of_ne hk]

omit [DecidableEq κ] in
theorem countTotal_filter_pos (counts : List (κ × Nat)) :
    countTotal (counts.filter fun e => e.2 > 0) = countTotal counts := by
  unfold countTotal
  induction counts with
  | nil => rfl
  | cons e counts ih =>
      by_cases he : e.2 > 0
      · rw [List.filter_cons_of_pos (by simpa using he)]
        simp [ih]
      · rw [List.filter_cons_of_neg (by simpa using he), ih]
        simp
        omega

/-- Counts by distinct keys that cover a list add up to its length. -/
theorem countTotal_of_covered {keys : List κ} (distinct : keys.Nodup) {key : α → κ} {l : List α}
    (covered : ∀ a ∈ l, key a ∈ keys) :
    countTotal (keys.map fun k => (k, (l.filter fun a => key a == k).length)) = l.length := by
  have grouped := (flatMap_filter_perm distinct covered).length_eq
  rw [List.length_flatMap] at grouped
  rw [countTotal, List.map_map]
  exact grouped

end

/-! ### Counts of violations -/

theorem countOf_countBySeverity (violations : List Violation) (s : Severity) :
    countOf (countBySeverity violations) s = violations.countP fun v => v.severity = s := by
  have listed : s ∈ Severity.all.reverse := by cases s <;> decide
  rw [countOf, countBySeverity, lookup_map_self listed, List.countP_eq_length_filter]
  rfl

theorem countTotal_countBySeverity (violations : List Violation) :
    countTotal (countBySeverity violations) = violations.length := by
  refine countTotal_of_covered (by decide) fun v _ => ?_
  cases v.severity <;> decide

theorem countOf_countByCategory (violations : List Violation) (c : Category) :
    countOf (countByCategory violations) c = violations.countP fun v => v.category = c := by
  have listed : c ∈ Category.all := by cases c <;> decide
  have distinct : ((Category.all.map fun c =>
      (c, (violations.filter fun v => v.category == c).length)).map Prod.fst).Nodup := by
    rw [List.map_map]
    exact (by decide : Category.all.Nodup)
  rw [countByCategory, countOf_filter_pos _ distinct, countOf, lookup_map_self listed,
    List.countP_eq_length_filter]
  rfl

theorem countTotal_countByCategory (violations : List Violation) :
    countTotal (countByCategory violations) = violations.length := by
  rw [countByCategory, countTotal_filter_pos]
  refine countTotal_of_covered (by decide) fun v _ => ?_
  cases v.category <;> decide

/-! ### The cost of violations -/

/-- The points that some violations cost together. -/
def cost (violations : List Violation) : Nat :=
  (violations.map fun v => v.severity.weight).sum

theorem cost_perm {violations others : List Violation} (h : others.Perm violations) :
    cost others = cost violations :=
  (h.map fun v : Violation => v.severity.weight).sum_eq

theorem cost_insert (before after : List Violation) (v : Violation) :
    cost (before ++ v :: after) = v.severity.weight + cost (before ++ after) := by
  have moved : (before ++ v :: after).Perm (v :: (before ++ after)) := List.perm_middle
  rw [cost_perm moved, cost, List.map_cons, List.sum_cons]
  rfl

/-- The cost by severity. -/
theorem cost_eq (violations : List Violation) :
    cost violations =
      10 * (violations.countP fun v => v.severity = .critical) +
      7 * (violations.countP fun v => v.severity = .high) +
      4 * (violations.countP fun v => v.severity = .medium) +
      1 * (violations.countP fun v => v.severity = .low) := by
  induction violations with
  | nil => rfl
  | cons v violations ih =>
      have step : cost (v :: violations) = v.severity.weight + cost violations := rfl
      rw [step, ih]
      simp only [List.countP_cons]
      cases v.severity <;> simp [Severity.weight] <;> omega

/-! ### Sums in words -/

theorem toNat_weight (s : Severity) : (UInt32.ofNat s.weight).toNat = s.weight := by
  cases s <;> rfl

theorem toNat_foldl_weight (violations : List Violation) (sum : UInt32) :
    (violations.foldl (fun sum v => sum + UInt32.ofNat v.severity.weight) sum).toNat =
      (sum.toNat + cost violations) % UInt32.size := by
  induction violations generalizing sum with
  | nil => exact (Nat.mod_eq_of_lt sum.toNat_lt).symm
  | cons v violations ih =>
      have step : cost (v :: violations) = v.severity.weight + cost violations := rfl
      rw [List.foldl_cons, ih, UInt32.toNat_add, toNat_weight, step, ← Nat.add_assoc]
      exact Nat.mod_add_mod _ _ _

/-- What is deducted is the cost, as far as a word of 32 bits can tell. -/
theorem toNat_deducted (violations : List Violation) :
    (deducted violations).toNat = cost violations % UInt32.size := by
  rw [deducted, toNat_foldl_weight, UInt32.toNat_zero, Nat.zero_add]

theorem overallScore_of_fits {violations : List Violation} (h : cost violations < UInt32.size) :
    overallScore violations = 100 - cost violations := by
  rw [overallScore, toNat_deducted, Nat.mod_eq_of_lt h]

/-- The sum of two words, if it fits into one. -/
def addWord? (a b : UInt32) : Option UInt32 :=
  if a.toNat + b.toNat < UInt32.size then some (a + b) else none

/-- The cost of violations, added up in words of 32 bits. -/
def wordCost? (violations : List Violation) : Option UInt32 :=
  violations.foldlM (fun sum v => addWord? sum (UInt32.ofNat v.severity.weight)) 0

/-- The score in words of 32 bits: what is taken off stops at zero. -/
def wordScore? (violations : List Violation) : Option UInt32 :=
  (wordCost? violations).map fun deducted => if deducted ≤ 100 then 100 - deducted else 0

theorem foldlM_addWord? (violations : List Violation) (sum : UInt32) :
    violations.foldlM (fun sum v => addWord? sum (UInt32.ofNat v.severity.weight)) sum =
      if sum.toNat + cost violations < UInt32.size
      then some (UInt32.ofNat (sum.toNat + cost violations)) else none := by
  induction violations generalizing sum with
  | nil =>
      have fits : sum.toNat + cost [] < UInt32.size := sum.toNat_lt
      rw [if_pos fits]
      exact congrArg some (UInt32.ofNat_toNat).symm
  | cons v violations ih =>
      have step : cost (v :: violations) = v.severity.weight + cost violations := rfl
      rw [List.foldlM_cons, addWord?, toNat_weight, step]
      by_cases fits : sum.toNat + v.severity.weight < UInt32.size
      · have next : (sum + UInt32.ofNat v.severity.weight).toNat =
            sum.toNat + v.severity.weight := by
          rw [UInt32.toNat_add, toNat_weight]
          exact Nat.mod_eq_of_lt fits
        rw [if_pos fits]
        refine (ih _).trans ?_
        rw [next, Nat.add_assoc]
      · -- the sum only grows, so it does not fit in the end either
        have exceeds : ¬ sum.toNat + (v.severity.weight + cost violations) < UInt32.size := by omega
        rw [if_neg fits, if_neg exceeds]
        rfl

/-- **Adding in words** goes well exactly if the sum fits into a word. -/
theorem wordCost?_eq (violations : List Violation) :
    wordCost? violations =
      if cost violations < UInt32.size then some (UInt32.ofNat (cost violations)) else none := by
  rw [wordCost?, foldlM_addWord?]
  simp

theorem wordScore?_of_fits {violations : List Violation} (h : cost violations < UInt32.size) :
    wordScore? violations = some (UInt32.ofNat (overallScore violations)) := by
  have word : (UInt32.ofNat (cost violations)).toNat = cost violations :=
    UInt32.toNat_ofNat_of_lt' h
  rw [wordScore?, wordCost?_eq, if_pos h, Option.map_some, overallScore_of_fits h]
  congr 1
  by_cases left : cost violations ≤ 100
  · have le : UInt32.ofNat (cost violations) ≤ 100 := by
      rw [UInt32.le_iff_toNat_le, word]
      exact left
    rw [if_pos le]
    exact (UInt32.ofNat_sub left).symm
  · have gt : ¬ UInt32.ofNat (cost violations) ≤ 100 := by
      rw [UInt32.le_iff_toNat_le, word]
      exact left
    rw [if_neg gt, Nat.sub_eq_zero_of_le (by omega)]
    rfl

/-! ### The score -/

/-- The measures of some violations agree with each other. -/
structure Metrics.Accounts (m : Metrics) (violations : List Violation) : Prop where
  severities : ∀ s, countOf m.bySeverity s = violations.countP fun v => v.severity = s
  categories : ∀ c, countOf m.byCategory c = violations.countP fun v => v.category = c
  severityTotal : countTotal m.bySeverity = violations.length
  categoryTotal : countTotal m.byCategory = violations.length
  score : (m.overallScore : Int) =
    max 0 (100 - (10 * countOf m.bySeverity .critical + 7 * countOf m.bySeverity .high +
      4 * countOf m.bySeverity .medium + 1 * countOf m.bySeverity .low))
  /-- Words of 32 bits give the same score. -/
  word : wordScore? violations = some (UInt32.ofNat m.overallScore)

/-- A violation `v` takes the score from `s` to `s'`. -/
structure Violation.Charges (v : Violation) (s s' : Nat) : Prop where
  points : (s' : Int) = max 0 (s - v.severity.weight)
  never_rises : s' ≤ s
  critical : v.severity = .critical → s ≠ 0 → s' < s

theorem overallScore_perm {violations others : List Violation} (h : others.Perm violations) :
    overallScore others = overallScore violations := by
  rw [overallScore, overallScore, toNat_deducted, toNat_deducted, cost_perm h]

/-- One more violation costs its weight, as far as there are points left. -/
theorem charges_insert {before after : List Violation} {v : Violation}
    (h : cost (before ++ v :: after) < UInt32.size) :
    v.Charges (overallScore (before ++ after)) (overallScore (before ++ v :: after)) := by
  have fits : cost (before ++ after) < UInt32.size := by
    rw [cost_insert] at h
    omega
  rw [overallScore_of_fits h, overallScore_of_fits fits, cost_insert]
  refine ⟨by omega, by omega, fun hcritical hpoints => ?_⟩
  rw [hcritical, Severity.weight]
  omega

/-- **The score is accounted for**, for all violations whose cost fits into a word of 32 bits; so
does the cost with the one that is inserted. -/
theorem Metrics.compute_accounts (violations : List Violation) (p : Project)
    (hcost : cost violations < UInt32.size) :
    (compute violations p).Accounts violations ∧
      (∀ others : List Violation, others.Perm violations →
        (compute others p).overallScore = (compute violations p).overallScore) ∧
      ∀ (before : List Violation) (v : Violation) (after : List Violation),
        violations = before ++ after → cost (before ++ v :: after) < UInt32.size →
          v.Charges (compute violations p).overallScore
            (compute (before ++ v :: after) p).overallScore := by
  have score : (compute violations p).overallScore = 100 - cost violations :=
    overallScore_of_fits hcost
  refine ⟨⟨countOf_countBySeverity violations, countOf_countByCategory violations,
    countTotal_countBySeverity violations, countTotal_countByCategory violations, ?_,
    wordScore?_of_fits hcost⟩, fun others h => overallScore_perm h, ?_⟩
  · have counts := countOf_countBySeverity violations
    have bySeverity : (compute violations p).bySeverity = countBySeverity violations := rfl
    rw [score, bySeverity, counts, counts, counts, counts, cost_eq]
    omega
  · rintro before v after rfl fits
    exact charges_insert fits

/-- One finding of every severity costs 22 points, and another critical one ten more. -/
theorem Metrics.compute_accounts_everySeverity :
    let found (s : Severity) : Violation :=
      { rule := "SRP-001", category := .solid, severity := s, title := "", path := ⟨"a.py"⟩ }
    let violations := [found .low, found .critical, found .high, found .medium]
    cost violations = 22 ∧
      (compute violations (Project.ofFiles [] {})).Accounts violations ∧
      (found .critical).Charges 78 68 := by
  intro found violations
  have hcost : cost violations = 22 := rfl
  obtain ⟨accounts, -, charges⟩ := compute_accounts violations (Project.ofFiles [] {})
    (by rw [hcost]; decide)
  exact ⟨hcost, accounts, charges [] (found .critical) violations rfl (by decide)⟩

end ArchReview

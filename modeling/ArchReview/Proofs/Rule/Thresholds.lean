import ArchReview.Proofs.Graph.Depth
import ArchReview.Rule.Coupling
import ArchReview.Rule.Design

/-!
# Higher thresholds find less

Every rule with a threshold looks for what lies above it, so a rule finds nothing new when
thresholds are raised.  What it still finds may be worded differently, since descriptions name the
threshold; it is the same finding when rule, severity and file agree (`Violation.key`).

`Fewer ws vs` says that the findings of `ws` are some of those of `vs`, in their order.  As with the
places of findings, it is followed through the operations that rules are built from; three rules
need an argument of their own.  A switch counts once for each number of branches from the threshold on
(`Solid.fewer_openClosed`), magic numbers count once for a file (`Design.fewer_magicNumbers`), and
long chains are chosen among each other (`Coupling.fewer_deepChains`).
-/

namespace ArchReview

/-- What tells findings apart, whatever they say: rule, severity and file. -/
def Violation.key (v : Violation) : String × Severity × Path := (v.rule, v.severity, v.path)

/-! ### Raising thresholds -/

/-- Every whole-number threshold of `u` is at least that of `t`, but for the size of files; this one
and the bound for cohesion are the same. -/
structure Thresholds.RaisedTo (t u : Thresholds) : Prop where
  maxClassLoc : t.maxClassLoc ≤ u.maxClassLoc
  maxMethodCount : t.maxMethodCount ≤ u.maxMethodCount
  maxFanOut : t.maxFanOut ≤ u.maxFanOut
  maxFanIn : t.maxFanIn ≤ u.maxFanIn
  longMethodLines : t.longMethodLines ≤ u.longMethodLines
  complexMethodBranches : t.complexMethodBranches ≤ u.complexMethodBranches
  lcomThreshold : t.lcomThreshold = u.lcomThreshold
  strategyBranchThreshold : t.strategyBranchThreshold ≤ u.strategyBranchThreshold
  fatInterfaceMethods : t.fatInterfaceMethods ≤ u.fatInterfaceMethods
  stubMethodMin : t.stubMethodMin ≤ u.stubMethodMin
  magicNumberMinOccurrences : t.magicNumberMinOccurrences ≤ u.magicNumberMinOccurrences
  factoryMinInstantiations : t.factoryMinInstantiations ≤ u.factoryMinInstantiations
  factoryMinArguments : t.factoryMinArguments ≤ u.factoryMinArguments
  maxChainDepth : t.maxChainDepth ≤ u.maxChainDepth
  maxFileBytes : t.maxFileBytes = u.maxFileBytes

/-! ### Fewer findings -/

/-- The findings of `ws` are some of those of `vs`, in the same order. -/
def Fewer (ws vs : List Violation) : Prop :=
  (ws.map Violation.key).Sublist (vs.map Violation.key)

namespace Fewer

variable {α : Type} {vs ws : List Violation}

theorem refl (vs : List Violation) : Fewer vs vs := List.Sublist.refl _

theorem nil : Fewer [] vs := List.nil_sublist _

theorem of_isPrefix (h : ws <+: vs) : Fewer ws vs := h.sublist.map _

theorem singleton {v w : Violation} (h : w.key = v.key) : Fewer [w] [v] := by
  rw [Fewer, List.map_singleton, List.map_singleton, h]

theorem append {vs' ws' : List Violation} (h : Fewer ws vs) (h' : Fewer ws' vs') :
    Fewer (ws ++ ws') (vs ++ vs') := by
  rw [Fewer, List.map_append, List.map_append]
  exact List.Sublist.append h h'

theorem ite {c d : Prop} [Decidable c] [Decidable d] (hcd : c → d) (h : Fewer ws vs) :
    Fewer (if c then ws else []) (if d then vs else []) := by
  by_cases hc : c
  · rwa [if_pos hc, if_pos (hcd hc)]
  · rw [if_neg hc]
    exact nil

/-- One finding for each element that is looked for. -/
theorem filter_map {p q : α → Bool} {find find' : α → Violation}
    (hpq : ∀ a, q a = true → p a = true) (hkey : ∀ a, (find' a).key = (find a).key) (l : List α) :
    Fewer ((l.filter q).map find') ((l.filter p).map find) := by
  have e : Violation.key ∘ find' = Violation.key ∘ find := funext hkey
  rw [Fewer, List.map_map, List.map_map, e]
  exact (List.monotone_filter_right l hpq).map _

theorem flatMap {find find' : α → List Violation} (h : ∀ a, Fewer (find' a) (find a)) (l : List α) :
    Fewer (l.flatMap find') (l.flatMap find) := by
  induction l with
  | nil => exact nil
  | cons a l ih =>
      rw [List.flatMap_cons, List.flatMap_cons]
      exact (h a).append ih

/-- Findings that cannot be told apart: only their number counts. -/
theorem map_of_length_le {find : α → Violation} {k : String × Severity × Path}
    (hkey : ∀ a, (find a).key = k) {l m : List α} (h : m.length ≤ l.length) :
    Fewer (m.map find) (l.map find) := by
  have same (n : List α) : (n.map find).map Violation.key = List.replicate n.length k := by
    have e : Violation.key ∘ find = fun _ => k := funext hkey
    rw [List.map_map, e, List.map_const']
  rw [Fewer, same, same]
  exact (List.replicate_sublist_replicate k).mpr h

end Fewer

open Fewer

/-! ### Class design -/

namespace Solid

variable {t u : Thresholds} (h : t.RaisedTo u) (o : Outline)
include h

theorem fewer_singleResponsibility :
    Fewer (singleResponsibility u o) (singleResponsibility t o) := by
  refine flatMap (fun c => append (append ?_ ?_) ?_) _
  · exact ite (fun hc => h.maxClassLoc.trans_lt hc) (singleton (by rfl))
  · exact ite (fun hc => h.maxMethodCount.trans_lt hc) (singleton (by rfl))
  · rw [lowCohesion, lowCohesion, h.lcomThreshold]
    exact Fewer.refl _

omit h in
theorem length_upTo (low high : Nat) : (upTo low high).length = high + 1 - low := by
  rw [upTo, List.length_map, List.length_range]

/-- A switch counts once for each number of branches that it reaches: a higher threshold leaves the
first of them out. -/
theorem fewer_openClosed : Fewer (openClosed u o) (openClosed t o) := by
  refine flatMap (fun chain =>
    map_of_length_le (k := ("OCP-001", .medium, o.path)) (fun _ => by rfl) ?_) _
  rw [length_upTo, length_upTo]
  exact Nat.sub_le_sub_left h.strategyBranchThreshold _

theorem fewer_interfaceSegregation :
    Fewer (interfaceSegregation u o) (interfaceSegregation t o) := by
  refine flatMap (fun c => append ?_ ?_) _
  · exact ite (fun hc => h.fatInterfaceMethods.trans_lt hc) (singleton (by rfl))
  · refine ite (fun hc => ?_) (singleton (by rfl))
    simp only [Bool.and_eq_true, decide_eq_true_eq] at hc ⊢
    exact ⟨hc.1, h.stubMethodMin.trans hc.2⟩

end Solid

theorem Solid.fewer_inFile {s : Settings} {u : Thresholds} (h : s.thresholds.RaisedTo u)
    (o : Outline) : Fewer (inFile { s with thresholds := u } o) (inFile s o) :=
  ((((fewer_singleResponsibility h o).append (fewer_openClosed h o)).append (Fewer.refl _)).append
    (fewer_interfaceSegregation h o)).append (Fewer.refl _)

/-! ### Smells -/

namespace Design

theorem insertLine_ne_nil (line : Nat) (lines : List Nat) : insertLine line lines ≠ [] := by
  cases lines with
  | nil => exact List.cons_ne_nil _ _
  | cons l ls =>
      unfold insertLine
      split
      · exact List.cons_ne_nil _ _
      · split <;> exact List.cons_ne_nil _ _

/-- Lines are collected from literals: there are none only if there are no literals. -/
theorem foldl_insertLine_eq_nil_iff {literals : List NumberLiteral} :
    literals.foldl (fun ls n => insertLine n.line ls) [] = [] ↔ literals = [] := by
  refine ⟨fun h => ?_, fun h => by rw [h]; rfl⟩
  rcases List.eq_nil_or_concat literals with rfl | ⟨init, last, rfl⟩
  · rfl
  · rw [List.concat_eq_append, List.foldl_append] at h
    exact absurd h (insertLine_ne_nil _ _)

/-- The values that a file repeats often enough. -/
def repeatedValues (t : Thresholds) (o : Outline) : List String :=
  (Text.nameSet ((unnamed o).map NumberLiteral.value)).filter fun v =>
    ((unnamed o).filter fun n => n.value == v).length ≥ t.magicNumberMinOccurrences

/-- The literals with these values. -/
def repeatedLiterals (t : Thresholds) (o : Outline) : List NumberLiteral :=
  (unnamed o).filter fun n => (repeatedValues t o).contains n.value

/-- There is a finding exactly if a value is repeated often enough, and it is always the same. -/
theorem map_key_magicNumbers (t : Thresholds) (o : Outline) :
    (magicNumbers t o).map Violation.key =
      if repeatedLiterals t o = [] then [] else [("PAT-004", .low, o.path)] := by
  unfold magicNumbers
  dsimp only
  split
  · rename_i lines
    have none : repeatedLiterals t o = [] := foldl_insertLine_eq_nil_iff.mp lines
    rw [if_pos none]
    rfl
  · rename_i lines
    have some : repeatedLiterals t o ≠ [] := fun none =>
      List.cons_ne_nil _ _ (lines.symm.trans (foldl_insertLine_eq_nil_iff.mpr none))
    rw [if_neg some]
    rfl

variable {t u : Thresholds} (h : t.RaisedTo u) (o : Outline)
include h

theorem fewer_magicNumbers : Fewer (magicNumbers u o) (magicNumbers t o) := by
  have hsub : (repeatedLiterals u o).Sublist (repeatedLiterals t o) := by
    refine List.monotone_filter_right _ fun n hn => ?_
    simp only [repeatedValues, List.contains_iff_mem, List.mem_filter, decide_eq_true_eq] at hn ⊢
    exact ⟨hn.1, h.magicNumberMinOccurrences.trans hn.2⟩
  rw [Fewer, map_key_magicNumbers, map_key_magicNumbers]
  by_cases none : repeatedLiterals t o = []
  · rw [none, List.sublist_nil] at hsub
    rw [if_pos none, if_pos hsub]
  · rw [if_neg none]
    split
    · exact List.nil_sublist _
    · exact List.Sublist.refl _

theorem fewer_godClasses : Fewer (godClasses u o) (godClasses t o) := by
  refine filter_map (fun c hc => ?_) (fun _ => by rfl) _
  simp only [Bool.or_eq_true, decide_eq_true_eq] at hc ⊢
  exact hc.imp h.maxClassLoc.trans_lt h.maxMethodCount.trans_lt

theorem fewer_factoryOpportunities :
    Fewer (factoryOpportunities u o) (factoryOpportunities t o) := by
  refine flatMap (fun name => ?_) _
  dsimp only
  split
  · exact nil
  · refine ite (fun hc => ?_) (singleton (by rfl))
    simp only [Bool.and_eq_true, decide_eq_true_eq, List.all_eq_true] at hc ⊢
    exact ⟨h.factoryMinInstantiations.trans hc.1,
      fun i hi => h.factoryMinArguments.trans (hc.2 i hi)⟩

theorem fewer_strategyOpportunities :
    Fewer (strategyOpportunities u o) (strategyOpportunities t o) := by
  refine filter_map (fun c hc => ?_) (fun _ => by rfl) _
  simp only [Bool.and_eq_true, decide_eq_true_eq] at hc ⊢
  exact ⟨h.strategyBranchThreshold.trans hc.1, hc.2⟩

theorem fewer_inFile : Fewer (inFile u o) (inFile t o) := by
  have long : Fewer (longMethods u o) (longMethods t o) :=
    filter_map (fun _ hf => by simpa using h.longMethodLines.trans_lt (of_decide_eq_true hf))
      (fun _ => by rfl) _
  have complex : Fewer (complexMethods u o) (complexMethods t o) :=
    filter_map (fun _ hf => by simpa using h.complexMethodBranches.trans_lt (of_decide_eq_true hf))
      (fun _ => by rfl) _
  exact ((((((long.append complex).append (fewer_godClasses h o)).append
    (fewer_magicNumbers h o)).append (Fewer.refl _)).append (fewer_factoryOpportunities h o)).append
    (fewer_strategyOpportunities h o)).append (Fewer.refl _)

end Design

/-! ### The dependency graph -/

namespace Coupling

variable {t u : Thresholds} (h : t.RaisedTo u) (g : Graph)
include h

theorem fewer_deepChains : Fewer (deepChains u g) (deepChains t g) := by
  obtain ⟨more, e⟩ := g.deepChains_isPrefix h.maxChainDepth
  refine of_isPrefix ⟨more.filterMap (chainViolation? g), ?_⟩
  rw [deepChains, deepChains, ← List.filterMap_append, e]

theorem fewer_inGraph : Fewer (inGraph u g) (inGraph t g) := by
  have out : Fewer (highFanOut u g) (highFanOut t g) :=
    filter_map (fun _ hm => by simpa using h.maxFanOut.trans_lt (of_decide_eq_true hm))
      (fun _ => by rfl) _
  have into : Fewer (highFanIn u g) (highFanIn t g) :=
    filter_map (fun _ hm => by simpa using h.maxFanIn.trans (of_decide_eq_true hm))
      (fun _ => by rfl) _
  exact (((Fewer.refl _).append out).append into).append (fewer_deepChains h g)

end Coupling

end ArchReview

import ArchReview.Proofs.Report.InputOrder
import ArchReview.Proofs.Report.Score
import ArchReview.Proofs.Rule.Thresholds
import Mathlib.Algebra.Order.BigOperators.Group.List
import Mathlib.Data.Multiset.Basic

/-!
# Higher thresholds never make a review worse

**Thresholds** (`reviewSources_raised`).  If settings differ in whole-number thresholds only, and
none of them is lowered, the findings of the second review are some of those of the first, told by
rule, severity and file.  So they cost no more, and the overall score is not lower as long as the
cost fits into a word.

The size of files is left out, since it decides which files are read at all.
-/

namespace ArchReview

/-- The same settings, with thresholds raised. -/
structure Settings.RaisedTo (s s' : Settings) : Prop where
  thresholds : s.thresholds.RaisedTo s'.thresholds
  others : s' = { s with thresholds := s'.thresholds }

/-! ### Violations in the order of the report -/

namespace Violation

theorem map_key_arrange_perm (vs : List Violation) :
    ((arrange vs).map key).Perm (vs.map key) := by
  rw [arrange, map_number fun _ _ => rfl]
  exact (List.mergeSort_perm vs le).map key

end Violation

/-- The fewer findings there are, the less they cost. -/
theorem cost_le_of_subperm {vs ws : List Violation}
    (h : (ws.map Violation.key).Subperm (vs.map Violation.key)) : cost ws ≤ cost vs := by
  have weights (l : List Violation) : (l.map fun v => v.severity.weight) =
      (l.map Violation.key).map fun k => k.2.1.weight := by
    rw [List.map_map]
    rfl
  obtain ⟨found, hperm, hsub⟩ := h
  rw [cost, cost, weights, weights, ← (hperm.map _).sum_eq]
  exact (hsub.map _).sum_le_sum fun _ _ => Nat.zero_le _

theorem overallScore_le_of_cost_le {vs ws : List Violation} (h : cost ws ≤ cost vs)
    (fits : cost vs < UInt32.size) : overallScore vs ≤ overallScore ws := by
  rw [overallScore_of_fits fits, overallScore_of_fits (Nat.lt_of_le_of_lt h fits)]
  exact Nat.sub_le_sub_left h 100

/-! ### Reviews -/

/-- A rule for single files finds less if it finds less in each file. -/
theorem Fewer.inEachFile (files : List SourceOutline) (s s' : Settings)
    {find find' : SourceOutline → List Violation} (h : ∀ f, Fewer (find' f) (find f)) :
    Fewer ((Project.ofFiles files s').inEachFile find')
      ((Project.ofFiles files s).inEachFile find) :=
  flatMap h _

section
variable {s : Settings} {u : Thresholds} (h : s.thresholds.RaisedTo u) (files : List SourceOutline)
include h

theorem Solid.fewer_found :
    Fewer (analyzer.found (Project.ofFiles files { s with thresholds := u }))
      (analyzer.found (Project.ofFiles files s)) := by
  rw [found_eq, found_eq]
  -- whether the pattern is refused does not depend on the thresholds
  change Fewer (if (refusal? s).isSome then [] else _) (if (refusal? s).isSome then [] else _)
  split
  · exact Fewer.refl []
  · exact Fewer.inEachFile files s { s with thresholds := u } fun f => fewer_inFile h f.outline

/-- What the analyzers find under higher thresholds is some of what they find under lower ones. -/
theorem fewer_runAnalyzers :
    Fewer (runAnalyzers standardAnalyzers (Project.ofFiles files { s with thresholds := u })).1
      (runAnalyzers standardAnalyzers (Project.ofFiles files s)).1 := by
  have design := Fewer.inEachFile files s { s with thresholds := u }
    fun f => Design.fewer_inFile h f.outline
  -- the rules of the layers have no thresholds
  have layering := Fewer.refl (Layering.analyzer.found (Project.ofFiles files s))
  have coupling := Coupling.fewer_inGraph h (Project.ofFiles files s).graph
  rw [runAnalyzers_standard, runAnalyzers_standard]
  exact (Solid.fewer_found h files).append (design.append (layering.append coupling))

end

/-- The second report finds nothing that the first does not find.  Its findings cost no more, and it
scores no lower if the cost fits into a word. -/
structure Report.EasedTo (r r' : Report) : Prop where
  keys_le : (↑(r'.violations.map Violation.key) : Multiset (String × Severity × Path)) ≤
    ↑(r.violations.map Violation.key)
  cost_le : cost r'.violations ≤ cost r.violations
  score_le : cost r.violations < UInt32.size →
    r.metrics.overallScore ≤ r'.metrics.overallScore

/-- Reviews of the same files under raised thresholds. -/
theorem Report.review_raised {s : Settings} {u : Thresholds} (h : s.thresholds.RaisedTo u)
    (expected : Option (List PatternKind)) (files : List SourceOutline) :
    (review s expected files).EasedTo (review { s with thresholds := u } expected files) := by
  have hkeys : ((review { s with thresholds := u } expected files).violations.map
      Violation.key).Subperm ((review s expected files).violations.map Violation.key) := by
    refine (Violation.map_key_arrange_perm _).subperm.trans
      (.trans ?_ (Violation.map_key_arrange_perm _).symm.subperm)
    exact List.Sublist.subperm ((fewer_runAnalyzers h files).append (.refl _))
  have hcost := cost_le_of_subperm hkeys
  exact ⟨hkeys, hcost, overallScore_le_of_cost_le hcost⟩

/-- **Thresholds.**  Raising whole-number thresholds, other than the size of files, adds no finding
and does not lower the score; neither does it in a review that knows the expected patterns. -/
theorem reviewSources_raised {s s' : Settings} (h : s.RaisedTo s') (sources : List SourceFile) :
    (reviewSources s sources).EasedTo (reviewSources s' sources) ∧
      ∀ expected : Option (List PatternKind),
        (Report.review s expected (sources.map s.reader.read)).EasedTo
          (Report.review s' expected (sources.map s'.reader.read)) := by
  have same : s'.reader = s.reader := congrArg (Reader.mk _) h.thresholds.maxFileBytes.symm
  have eased (expected : Option (List PatternKind)) :
      (Report.review s expected (sources.map s.reader.read)).EasedTo
        (Report.review s' expected (sources.map s'.reader.read)) := by
    rw [same, h.others]
    exact Report.review_raised h.thresholds expected _
  exact ⟨⟨(eased none).keys_le, (eased none).cost_le, (eased none).score_le⟩, eased⟩

/-- A switch over a kind with five branches. -/
def switchSources : List SourceFile :=
  [⟨⟨"shop/price.py"⟩, .python, ("def price(kind):\n" ++
    "    if kind == 'a':\n        return 3\n    elif kind == 'b':\n        return 3\n" ++
    "    elif kind == 'c':\n        return 3\n    elif kind == 'd':\n        return 4\n" ++
    "    elif kind == 'e':\n        return 5\n").toUTF8⟩]

/-- The standard thresholds, some of them raised. -/
def lenientSettings : Settings where
  thresholds := { strategyBranchThreshold := 6, magicNumberMinOccurrences := 4, maxChainDepth := 9 }

theorem raisedTo_lenientSettings : ({} : Settings).RaisedTo lenientSettings where
  thresholds := by
    constructor
    case lcomThreshold => rfl
    all_goals decide
  others := rfl

theorem reviewSources_raised_switchSources :
    ({} : Settings).RaisedTo lenientSettings ∧
      (reviewSources {} switchSources).EasedTo (reviewSources lenientSettings switchSources) :=
  ⟨raisedTo_lenientSettings, (reviewSources_raised raisedTo_lenientSettings switchSources).1⟩

end ArchReview

import ArchReview.Proofs.Graph.Alike
import ArchReview.Proofs.Outline.Reading
import ArchReview.Proofs.Rule.Placement
import ArchReview.Proofs.Violation.Order
import ArchReview.Report.Basic

/-!
# The order of the files does not matter

**Input order** (`reviewSources_perm`).  If no two sources have the same normal path, a review of
the sources in any other order finds the same violations under the same numbers, the same measures,
the same patterns and the same kind of project; the files that could not be read and the imports
that lead nowhere are the same ones, perhaps listed in another order.

The graphs of the two runs are alike (`Graph.ofOutlines_alike`), so the rules find the same in each
file.  What they find is sorted, and violations that tie lie in one file (`Violation.same_of_tie`),
where both runs find them in the same order.
-/

namespace ArchReview

/-! ### Files -/

/-- No two files have the same normal path. -/
def DistinctFiles (files : List SourceOutline) : Prop :=
  files.Pairwise fun f f' => f.outline.path.normalize ≠ f'.outline.path.normalize

/-- What is found in each of some files, when findings that tie lie in one file: the order of the
files does not matter for ties. -/
theorem ties_flatMap_of_perm {α : Type} {le : α → α → Bool} {place : α → Path}
    (hle : ∀ a b, le a b = true → le b a = true → (place a).same (place b) = true)
    {find : SourceOutline → List α} (hfind : ∀ f, ∀ a ∈ find f, place a = f.outline.path)
    {files others : List SourceOutline} (h : files.Perm others) (hd : DistinctFiles files) (a : α) :
    ties le a (files.flatMap find) = ties le a (others.flatMap find) := by
  rw [ties_flatMap, ties_flatMap]
  refine flatMap_eq_of_perm h (hd.imp fun {f f'} hne => ?_)
  -- a file with findings that tie with `a` is the file of `a`
  have same : ∀ {f}, ties le a (find f) ≠ [] → (place a).same f.outline.path = true := by
    intro f hf
    obtain ⟨b, hb⟩ := List.exists_mem_of_ne_nil _ hf
    obtain ⟨hb, hab, hba⟩ := mem_ties.mp hb
    rw [← hfind f b hb]
    exact hle a b hab hba
  by_contra hboth
  obtain ⟨hf, hf'⟩ := not_or.mp hboth
  refine hne (Path.normalize_congr (Path.same_iff.mpr ?_))
  exact (Path.same_iff.mp (same hf)).symm.trans (Path.same_iff.mp (same hf'))

/-! ### Projects -/

/-- The same files in another order, under the same settings. -/
structure Project.Alike (p q : Project) : Prop where
  files : p.files.Perm q.files
  distinct : DistinctFiles p.files
  graph : p.graph.Alike q.graph
  settings : p.settings = q.settings

theorem Project.ofFiles_alike {files others : List SourceOutline} (h : files.Perm others)
    (hd : DistinctFiles files) (settings : Settings) :
    (ofFiles files settings).Alike (ofFiles others settings) where
  files := h
  distinct := hd
  graph := by
    refine Graph.ofOutlines_alike (h.map _) ?_ _
    rw [List.map_map]
    exact List.pairwise_map.mpr hd
  settings := rfl

/-! ### Analyzers -/

/-- What an analyzer contributes to a review: nothing if it fails. -/
def Analyzer.found (a : Analyzer) (p : Project) : List Violation :=
  match a.run p with
  | .ok found => found
  | .error _  => []

/-- What the analyzers of a review find, one after the other. -/
theorem runAnalyzers_standard (p : Project) :
    (runAnalyzers standardAnalyzers p).1 =
      Solid.analyzer.found p ++ (Design.analyzer.found p ++
        (Layering.analyzer.found p ++ Coupling.analyzer.found p)) := by
  simp only [runAnalyzers, standardAnalyzers, List.map_cons, List.map_nil, List.flatMap_cons,
    List.flatMap_nil, List.append_nil]
  rfl

theorem Analyzer.found_of_run {a : Analyzer} {p : Project} {refusal : Option String}
    {find : SourceOutline → List Violation} (h : a.run p = p.inEachFileUnless refusal find) :
    a.found p = if refusal.isSome then [] else p.inEachFile find := by
  rw [found, h]
  cases refusal <;> rfl

theorem Solid.found_eq (p : Project) :
    analyzer.found p = if (refusal? p.settings).isSome then []
      else p.inEachFile fun f => inFile p.settings f.outline :=
  Analyzer.found_of_run rfl

theorem Layering.found_eq (p : Project) :
    analyzer.found p = if (refusal? p.settings).isSome then [] else p.inEachFile (inFile p) :=
  Analyzer.found_of_run rfl

theorem Design.found_eq (p : Project) : analyzer.found p =
    p.inEachFile fun f => inFile p.settings.thresholds f.outline := rfl

theorem Coupling.found_eq (p : Project) :
    analyzer.found p = inGraph p.settings.thresholds p.graph := rfl

/-- Which analyzers fail, and why, depends on the settings only. -/
theorem failures_standard {p q : Project} (h : p.settings = q.settings) :
    (runAnalyzers standardAnalyzers p).2 = (runAnalyzers standardAnalyzers q).2 := by
  simp only [runAnalyzers, standardAnalyzers, Solid.analyzer, Design.analyzer, Layering.analyzer,
    Coupling.analyzer, List.map_cons, List.map_nil, h]
  cases Solid.refusal? q.settings <;> cases Layering.refusal? q.settings <;> rfl

namespace Project.Alike

variable {p q : Project} (a : p.Alike q)
include a

theorem parsed : p.parsed.Perm q.parsed := a.files.filter _

theorem distinct_parsed : DistinctFiles p.parsed := a.distinct.sublist List.filter_sublist

/-! ### Violations -/

theorem ties_inEachFile {find : SourceOutline → List Violation}
    (hfind : ∀ f, PlacedIn f.outline.path (find f)) (v : Violation) :
    ties Violation.le v (p.inEachFile find) = ties Violation.le v (q.inEachFile find) :=
  ties_flatMap_of_perm Violation.same_of_tie hfind a.parsed a.distinct_parsed v

theorem layering_inFile_eq : Layering.inFile p = Layering.inFile q := by
  funext f
  simp only [Layering.inFile, Layering.inLayer, Layering.layerImports, a.settings,
    a.graph.linksOf_eq]

theorem coupling_inGraph_eq (t : Thresholds) :
    Coupling.inGraph t p.graph = Coupling.inGraph t q.graph := by
  have hline : Coupling.importLine? p.graph = Coupling.importLine? q.graph := by
    funext source target
    rw [Coupling.importLine?, Coupling.importLine?, a.graph.linksOf_eq]
  have hcycle : Coupling.cycleViolation? p.graph = Coupling.cycleViolation? q.graph := by
    funext cycle
    rw [Coupling.cycleViolation?, Coupling.cycleViolation?, hline]
  have hchain : Coupling.chainViolation? p.graph = Coupling.chainViolation? q.graph := by
    funext chain
    unfold Coupling.chainViolation?
    rw [hline]
  rw [Coupling.inGraph, Coupling.inGraph, Coupling.cycles, Coupling.cycles, Coupling.highFanOut,
    Coupling.highFanOut, Coupling.highFanIn, Coupling.highFanIn, Coupling.deepChains,
    Coupling.deepChains, hcycle, hchain, a.graph.cycles_eq, a.graph.couplings_eq,
    a.graph.deepChains_eq]

theorem ties_solid (v : Violation) :
    ties Violation.le v (Solid.analyzer.found p) = ties Violation.le v (Solid.analyzer.found q) := by
  rw [Solid.found_eq, Solid.found_eq, a.settings]
  split
  · rfl
  · exact a.ties_inEachFile (fun f => Solid.placedIn_inFile q.settings f.outline) v

theorem ties_design (v : Violation) : ties Violation.le v (Design.analyzer.found p) =
    ties Violation.le v (Design.analyzer.found q) := by
  rw [Design.found_eq, Design.found_eq, a.settings]
  exact a.ties_inEachFile (fun f => Design.placedIn_inFile q.settings.thresholds f.outline) v

theorem ties_layering (v : Violation) : ties Violation.le v (Layering.analyzer.found p) =
    ties Violation.le v (Layering.analyzer.found q) := by
  rw [Layering.found_eq, Layering.found_eq, a.settings]
  split
  · rfl
  · rw [a.layering_inFile_eq]
    exact a.ties_inEachFile (Layering.placedIn_inFile q) v

theorem ties_coupling (v : Violation) : ties Violation.le v (Coupling.analyzer.found p) =
    ties Violation.le v (Coupling.analyzer.found q) := by
  rw [Coupling.found_eq, Coupling.found_eq, a.settings, a.coupling_inGraph_eq]

/-- The violations of two projects that are alike are arranged alike. -/
theorem arrange_eq (drift : List Violation) :
    Violation.arrange ((runAnalyzers standardAnalyzers p).1 ++ drift) =
      Violation.arrange ((runAnalyzers standardAnalyzers q).1 ++ drift) := by
  rw [Violation.arrange, Violation.arrange]
  refine congrArg _ (mergeSort_eq_of_ties Violation.le_trans Violation.le_total fun v => ?_)
  -- each analyzer finds the same ties in both projects, so they are compared one by one
  rw [runAnalyzers_standard, runAnalyzers_standard]
  simp only [ties_append, a.ties_solid, a.ties_design, a.ties_layering, a.ties_coupling]

/-! ### Patterns -/

theorem classes_perm : (Recognition.classes p).Perm (Recognition.classes q) :=
  a.parsed.flatMap_right _

theorem interfaceNames_perm :
    (Recognition.interfaceNames p).Perm (Recognition.interfaceNames q) :=
  (a.classes_perm.filter _).map _

theorem strategyEvidence_eq :
    Recognition.strategyEvidence? p = Recognition.strategyEvidence? q := by
  funext c
  have hperm : (Recognition.implementers p c.name).Perm (Recognition.implementers q c.name) :=
    a.classes_perm.flatMap_right _
  rw [Recognition.strategyEvidence?, Recognition.strategyEvidence?, hperm.length_eq,
    Text.nameSet_congr fun _ => hperm.mem_iff]

theorem injectionEvidence_eq :
    Recognition.injectionEvidence? (Recognition.interfaceNames p) =
      Recognition.injectionEvidence? (Recognition.interfaceNames q) := by
  have habstract : Recognition.looksAbstract (Recognition.interfaceNames p) =
      Recognition.looksAbstract (Recognition.interfaceNames q) := by
    funext type
    simp only [Recognition.looksAbstract, a.interfaceNames_perm.contains_eq]
  funext c
  rw [Recognition.injectionEvidence?, Recognition.injectionEvidence?, habstract]

theorem inClass_eq :
    Recognition.inClass p (Recognition.interfaceNames p) =
      Recognition.inClass q (Recognition.interfaceNames q) := by
  funext path c
  rw [Recognition.inClass, Recognition.inClass, a.strategyEvidence_eq, a.injectionEvidence_eq]

theorem recognize_eq : Recognition.recognize p = Recognition.recognize q := by
  rw [Recognition.recognize, Recognition.recognize]
  refine mergeSort_eq_of_ties Recognition.le_trans Recognition.le_total fun found => ?_
  simp only [a.inClass_eq]
  refine ties_flatMap_of_perm Recognition.same_of_tie (fun f b hb => ?_) a.parsed
    a.distinct_parsed found
  obtain ⟨c, -, hb⟩ := List.mem_flatMap.mp hb
  exact Recognition.path_of_mem_inClass hb

/-! ### Measures -/

theorem coverage_eq : Coverage.ofProject p = Coverage.ofProject q := by
  rw [Coverage.ofProject, Coverage.ofProject, a.settings]
  refine (a.parsed.map _).foldl_eq' (fun x _ y _ z => ?_) _
  simp only [Coverage.add, Coverage.mk.injEq]
  omega

theorem metrics_eq (violations : List Violation) :
    Metrics.compute violations p = Metrics.compute violations q := by
  have hcoupling : CouplingMetrics.ofGraph p.graph = CouplingMetrics.ofGraph q.graph := by
    rw [CouplingMetrics.ofGraph, CouplingMetrics.ofGraph, a.graph.couplings_eq,
      a.graph.edgeCount_eq, a.graph.cycles_eq]
  rw [Metrics.compute, Metrics.compute, a.coverage_eq, hcoupling, a.files.length_eq,
    (a.files.filter _).length_eq]

end Project.Alike

theorem Framework.guess_of_perm {outlines others : List Outline} (h : outlines.Perm others) :
    guess outlines = guess others := by
  simp only [guess, h.any_eq, h.length_eq, (h.filter _).length_eq]

/-! ### Reports -/

/-- Two reports say the same, up to the order of what could not be read or resolved. -/
structure Report.SameFindings (r s : Report) : Prop where
  projectName : r.projectName = s.projectName
  violations : r.violations = s.violations
  metrics : r.metrics = s.metrics
  patterns : r.patterns = s.patterns
  projectType : r.projectType = s.projectType
  parseErrors : r.parseErrors.Perm s.parseErrors
  unresolvedImports : r.unresolvedImports.Perm s.unresolvedImports
  analyzerFailures : r.analyzerFailures = s.analyzerFailures

/-- Reviews of distinct files in any two orders say the same. -/
theorem Report.review_perm (settings : Settings) (expected : Option (List PatternKind))
    {files others : List SourceOutline} (h : files.Perm others) (hd : DistinctFiles files) :
    (review settings expected files).SameFindings (review settings expected others) := by
  have a := Project.ofFiles_alike h hd settings
  have hviolations : (review settings expected files).violations =
      (review settings expected others).violations := by
    simp only [review, reviewWith, a.recognize_eq]
    exact a.arrange_eq _
  refine ⟨rfl, hviolations, ?_, a.recognize_eq, ?_, (h.filter _).map _, a.graph.unresolved_perm, ?_⟩
  · refine Eq.trans ?_ (a.metrics_eq _)
    exact congrArg (Metrics.compute · _) hviolations
  · exact congrArg Framework.text (Framework.guess_of_perm (h.map _))
  · exact failures_standard a.settings

/-- **Input order.**  If no two sources have the same normal path, reviews of the sources in any two
orders say the same. -/
theorem reviewSources_perm (settings : Settings) {sources others : List SourceFile}
    (h : sources.Perm others) (hd : (sources.map fun f => f.path.normalize).Nodup) :
    (reviewSources settings sources).SameFindings (reviewSources settings others) := by
  have hfiles : DistinctFiles (sources.map settings.reader.read) := by
    refine List.pairwise_map.mpr ((List.pairwise_map.mp hd).imp fun hne => ?_)
    rwa [Reader.path_read, Reader.path_read]
  have hsame := Report.review_perm settings none (h.map settings.reader.read) hfiles
  exact { hsame with projectName := rfl }

/-- Three sources: two that import each other, under paths that are not normal, and one that cannot
be read. -/
def tangledSources : List SourceFile :=
  [⟨⟨"src/./b.py"⟩, .python, "from .a import f\n".toUTF8⟩,
   ⟨⟨"src/x/../a.py"⟩, .python, "from .b import g\n".toUTF8⟩,
   ⟨⟨"c.ts"⟩, .typeScript, "if (".toUTF8⟩]

theorem reviewSources_perm_tangledSources :
    tangledSources.Perm tangledSources.reverse ∧
      (tangledSources.map fun f => f.path.normalize).Nodup ∧
      (reviewSources {} tangledSources).SameFindings (reviewSources {} tangledSources.reverse) := by
  have hperm : tangledSources.Perm tangledSources.reverse := (List.reverse_perm _).symm
  have hd : (tangledSources.map fun f => f.path.normalize).Nodup := by decide +kernel
  exact ⟨hperm, hd, reviewSources_perm {} hperm hd⟩

end ArchReview

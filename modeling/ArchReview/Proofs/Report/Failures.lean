import ArchReview.Proofs.Graph.Accounting
import ArchReview.Proofs.Report.InputOrder

/-!
# A file that cannot be read

A file that cannot be read is a node of the graph, so that imports may lead to it, and nothing else.
Rules that look at the graph may find more or less because of it (`graphRules`); all other rules,
and the recognition of patterns, look only at the files that could be read (`Project.SameParsed`).

**Isolation** (`reviewSources_insert_failed`).  One more file that cannot be read, wherever it
stands among the sources, leaves the violations of all other rules and the patterns as they are.
The report has one more error and counts one more file, and no edge starts at the file, unless
another file of the same normal path could be read.
-/

namespace ArchReview

/-! ### Violations of the graph -/

/-- The rules that look at the graph. -/
def graphRules : List String := ["LAYER-003", "COUP-001", "COUP-002", "COUP-003", "COUP-004"]

namespace Violation

/-- A violation of a rule that does not look at the graph. -/
def isLocal (v : Violation) : Bool := !graphRules.contains v.rule

theorem filter_isLocal_eq_nil {vs : List Violation} (h : ∀ v ∈ vs, v.rule ∈ graphRules) :
    vs.filter isLocal = [] := by
  refine List.filter_eq_nil_iff.mpr fun v hv => ?_
  simpa [isLocal] using h v hv

theorem map_unnumbered_filter_number (vs : List Violation) (n : Nat) :
    ((number n vs).filter isLocal).map unnumbered = (vs.filter isLocal).map unnumbered := by
  have swap (ws : List Violation) :
      (ws.filter isLocal).map unnumbered = (ws.map unnumbered).filter isLocal := by
    rw [List.filter_map]
    rfl
  rw [swap, swap, map_number fun _ _ => rfl]

/-- The order of some violations in the report does not depend on the others. -/
theorem map_unnumbered_filter_arrange (vs : List Violation) :
    ((arrange vs).filter isLocal).map unnumbered =
      ((vs.filter isLocal).mergeSort le).map unnumbered := by
  rw [arrange, map_unnumbered_filter_number, mergeSort_filter le_trans le_total]

end Violation

namespace Coupling

theorem rule_of_cycleViolation? {g : Graph} {cycle : List Path} {v : Violation}
    (h : cycleViolation? g cycle = some v) : v.rule = "COUP-001" := by
  obtain ⟨head, -, rfl⟩ := Option.map_eq_some_iff.mp h
  dsimp only
  split <;> rfl

theorem rule_of_chainViolation? {g : Graph} {chain : List Path} {v : Violation}
    (h : chainViolation? g chain = some v) : v.rule = "COUP-004" := by
  unfold chainViolation? at h
  split at h
  · cases h
    rfl
  · cases h

variable {t : Thresholds} {g : Graph} {v : Violation}

theorem rule_of_mem_cycles (h : v ∈ cycles g) : v.rule = "COUP-001" := by
  obtain ⟨cycle, -, hv⟩ := List.mem_filterMap.mp h
  exact rule_of_cycleViolation? hv

theorem rule_of_mem_highFanOut (h : v ∈ highFanOut t g) : v.rule = "COUP-002" := by
  obtain ⟨m, -, rfl⟩ := List.mem_map.mp h
  rfl

theorem rule_of_mem_highFanIn (h : v ∈ highFanIn t g) : v.rule = "COUP-003" := by
  obtain ⟨m, -, rfl⟩ := List.mem_map.mp h
  rfl

theorem rule_of_mem_deepChains (h : v ∈ deepChains t g) : v.rule = "COUP-004" := by
  obtain ⟨chain, -, hv⟩ := List.mem_filterMap.mp h
  exact rule_of_chainViolation? hv

/-- All that is found in a graph breaks a rule that looks at the graph. -/
theorem rule_mem_of_mem_inGraph (h : v ∈ inGraph t g) : v.rule ∈ graphRules := by
  simp only [inGraph, List.mem_append] at h
  rcases h with ((h | h) | h) | h
  · simp [rule_of_mem_cycles h, graphRules]
  · simp [rule_of_mem_highFanOut h, graphRules]
  · simp [rule_of_mem_highFanIn h, graphRules]
  · simp [rule_of_mem_deepChains h, graphRules]

end Coupling

/-- Of the rules of the layers, only the one for imports looks at the graph. -/
theorem Layering.filter_isLocal_inFile {p q : Project} (h : p.settings = q.settings)
    (f : SourceOutline) :
    (inFile p f).filter Violation.isLocal = (inFile q f).filter Violation.isLocal := by
  have imports (p : Project) (layer : Layer) (o : Outline) :
      (layerImports p layer o).filter Violation.isLocal = [] := by
    refine Violation.filter_isLocal_eq_nil fun v hv => ?_
    obtain ⟨breach, -, rfl⟩ := List.mem_map.mp hv
    simp [graphRules]
  unfold inFile
  rw [h]
  cases q.settings.layers.classify f.outline.path with
  | none => rfl
  | some layer => simp only [inLayer, List.filter_append, imports, h]

/-! ### Projects with the same files that could be read -/

/-- Two projects that differ at most in files that could not be read. -/
structure Project.SameParsed (p q : Project) : Prop where
  parsed : p.parsed = q.parsed
  settings : p.settings = q.settings

namespace Project.SameParsed

variable {p q : Project} (h : p.SameParsed q)
include h

theorem filter_isLocal_runAnalyzers :
    (runAnalyzers standardAnalyzers p).1.filter Violation.isLocal =
      (runAnalyzers standardAnalyzers q).1.filter Violation.isLocal := by
  have each (find : SourceOutline → List Violation) : p.inEachFile find = q.inEachFile find := by
    rw [inEachFile, inEachFile, h.parsed]
  have solid : Solid.analyzer.found p = Solid.analyzer.found q := by
    rw [Solid.found_eq, Solid.found_eq, h.settings, each]
  have design : Design.analyzer.found p = Design.analyzer.found q := by
    rw [Design.found_eq, Design.found_eq, h.settings, each]
  have layers : (Layering.analyzer.found p).filter Violation.isLocal =
      (Layering.analyzer.found q).filter Violation.isLocal := by
    rw [Layering.found_eq, Layering.found_eq, h.settings]
    split
    · rfl
    · rw [inEachFile, inEachFile, List.filter_flatMap, List.filter_flatMap, h.parsed]
      simp only [Layering.filter_isLocal_inFile h.settings]
  have graph (p : Project) : (Coupling.analyzer.found p).filter Violation.isLocal = [] :=
    Violation.filter_isLocal_eq_nil fun _ => Coupling.rule_mem_of_mem_inGraph
  rw [runAnalyzers_standard, runAnalyzers_standard]
  simp only [List.filter_append, solid, design, layers, graph]

theorem recognize_eq : Recognition.recognize p = Recognition.recognize q := by
  have classes : Recognition.classes p = Recognition.classes q := by
    rw [Recognition.classes, Recognition.classes, h.parsed]
  have strategy : Recognition.strategyEvidence? p = Recognition.strategyEvidence? q := by
    have implementers : Recognition.implementers p = Recognition.implementers q := by
      funext interface
      rw [Recognition.implementers, Recognition.implementers, classes]
    funext c
    rw [Recognition.strategyEvidence?, Recognition.strategyEvidence?, implementers]
  have interfaces : Recognition.interfaceNames p = Recognition.interfaceNames q := by
    rw [Recognition.interfaceNames, Recognition.interfaceNames, classes]
  have inClass : Recognition.inClass p = Recognition.inClass q := by
    funext names path c
    rw [Recognition.inClass, Recognition.inClass, strategy]
  rw [Recognition.recognize, Recognition.recognize, h.parsed, interfaces, inClass]

end Project.SameParsed

/-! ### One more file that cannot be read -/

section
variable (front back : List SourceOutline) {x : SourceOutline}
  (hx : x.outline.succeeded = false)
include hx

theorem Project.sameParsed_insert (settings : Settings) :
    (ofFiles (front ++ x :: back) settings).SameParsed (ofFiles (front ++ back) settings) where
  parsed := by simp [parsed, ofFiles, hx]
  settings := rfl

theorem Report.errorsOf_insert :
    errorsOf (front ++ x :: back) = errorsOf front ++
      ⟨x.outline.path, x.outline.errorLine, x.outline.error.getD ""⟩ :: errorsOf back := by
  simp [errorsOf, hx]

end

/-- What changes and what does not when a report is made with one more file that cannot be read. -/
structure Report.GainsFailure (r r' : Report) (error : FileError) : Prop where
  /-- All rules that do not look at the graph find the same, in the same order. -/
  violations : (r'.violations.filter Violation.isLocal).map Violation.unnumbered =
    (r.violations.filter Violation.isLocal).map Violation.unnumbered
  patterns : r'.patterns = r.patterns
  /-- There is one more error. -/
  parseErrors : ∃ before after, r.parseErrors = before ++ after ∧
    r'.parseErrors = before ++ error :: after
  filesAnalyzed : r'.metrics.filesAnalyzed = r.metrics.filesAnalyzed + 1
  filesFailed : r'.metrics.filesFailed = r.metrics.filesFailed + 1

theorem Report.review_insert_failed (settings : Settings) (expected : Option (List PatternKind))
    (front back : List SourceOutline) {x : SourceOutline} (hx : x.outline.succeeded = false) :
    (review settings expected (front ++ back)).GainsFailure
      (review settings expected (front ++ x :: back))
      ⟨x.outline.path, x.outline.errorLine, x.outline.error.getD ""⟩ := by
  have h := Project.sameParsed_insert front back hx settings
  refine ⟨?_, h.recognize_eq, ⟨errorsOf front, errorsOf back, ?_, errorsOf_insert front back hx⟩,
    ?_, ?_⟩
  · simp only [review, reviewWith, Violation.map_unnumbered_filter_arrange, List.filter_append,
      h.filter_isLocal_runAnalyzers, h.recognize_eq]
  · simp [review, reviewWith, errorsOf]
  · simp only [review, reviewWith, Metrics.compute, Project.ofFiles, List.length_append,
      List.length_cons]
    omega
  · simp only [review, reviewWith, Metrics.compute, Project.ofFiles, List.filter_append,
      List.filter_cons, hx, Bool.not_false, if_true, List.length_append, List.length_cons]
    omega

/-- An edge starts at the normal path of a file that could be read. -/
theorem Graph.exists_parsed_of_mem_edges {outlines : List Outline} {policy : SelfLoops}
    {p q : Path} (h : (p, q) ∈ (ofOutlines outlines policy).edges) :
    ∃ o ∈ outlines, o.succeeded = true ∧ o.path.normalize = p := by
  obtain ⟨hp, hq⟩ := mem_edges.mp h
  obtain ⟨l, hl, hlp, -⟩ := (ofOutlines_proper outlines policy).mem_successors.mp hq
  obtain ⟨o, ho, hok, i, -, hl⟩ := mem_links_ofOutlines.mp hl
  obtain ⟨o', -, rfl⟩ := (mem_nodes_ofOutlines outlines policy).mp hp
  rw [(Import.mem_trace hl).1] at hlp
  exact ⟨o, ho, hok, Path.normalize_eq_of_same hlp⟩

/-- **Isolation.**  One more source that cannot be read changes nothing but what the rules of the
graph find; the report has one more error, and no edge starts at the source on its own account. -/
theorem reviewSources_insert_failed (settings : Settings) (front back : List SourceFile)
    {x : SourceFile} (hx : (settings.reader.read x).outline.succeeded = false) :
    let o := (settings.reader.read x).outline
    let error : FileError := ⟨x.path, o.errorLine, o.error.getD ""⟩
    let files := (front ++ x :: back).map settings.reader.read
    let graph := (Project.ofFiles files settings).graph
    (reviewSources settings (front ++ back)).GainsFailure
        (reviewSources settings (front ++ x :: back)) error ∧
      (∀ expected, (Report.review settings expected
          ((front ++ back).map settings.reader.read)).GainsFailure
        (Report.review settings expected files) error) ∧
      x.path.normalize ∈ graph.nodes ∧
      ∀ q, (x.path.normalize, q) ∈ graph.edges →
        ∃ f ∈ front ++ back, (settings.reader.read f).outline.succeeded = true ∧
          f.path.normalize = x.path.normalize := by
  intro o error files graph
  have gains (expected : Option (List PatternKind)) : (Report.review settings expected
      ((front ++ back).map settings.reader.read)).GainsFailure
        (Report.review settings expected files) error := by
    have h := Report.review_insert_failed settings expected (front.map settings.reader.read)
      (back.map settings.reader.read) hx
    rw [Reader.path_read] at h
    simpa only [files, List.map_append, List.map_cons] using h
  -- a review of sources is the first of these but for the name of the project
  refine ⟨{ gains none with }, gains, ?_, fun q hq => ?_⟩
  · refine (Graph.mem_nodes_ofOutlines _ _).mpr ⟨o, ?_, by rw [Reader.path_read]⟩
    simp [files, o]
  · obtain ⟨o', ho', hok, hpath⟩ := Graph.exists_parsed_of_mem_edges hq
    obtain ⟨read, hread, rfl⟩ := List.mem_map.mp ho'
    obtain ⟨f, hf, rfl⟩ := List.mem_map.mp hread
    rw [Reader.path_read] at hpath
    refine ⟨f, ?_, hok, hpath⟩
    -- the file is another one: this one could not be read
    rcases List.mem_append.mp hf with hf | hf
    · exact List.mem_append_left _ hf
    · rcases List.mem_cons.mp hf with rfl | hf
      · rw [hx] at hok
        cases hok
      · exact List.mem_append_right _ hf

/-- A file that cannot be read, at the path that another one imports. -/
def brokenModel : SourceFile := ⟨⟨"app/models/user.py"⟩, .python, "def (:\n".toUTF8⟩

theorem reviewSources_insert_failed_brokenModel :
    let view : SourceFile :=
      ⟨⟨"app/views/home.py"⟩, .python, "from app.models import user\n".toUTF8⟩
    let settings : Settings := {}
    (settings.reader.read brokenModel).outline.succeeded = false ∧
      (reviewSources settings [view]).GainsFailure (reviewSources settings [brokenModel, view])
        ⟨brokenModel.path, some 1, "Syntax error at line 1: unexpected token"⟩ := by
  intro view settings
  have hx : (settings.reader.read brokenModel).outline.succeeded = false := by decide +kernel
  have errorLine : (settings.reader.read brokenModel).outline.errorLine = some 1 := by
    decide +kernel
  have error : (settings.reader.read brokenModel).outline.error.getD "" =
      "Syntax error at line 1: unexpected token" := by decide +kernel
  have h := (reviewSources_insert_failed settings [] [view] hx).1
  rw [errorLine, error] at h
  exact ⟨hx, h⟩

end ArchReview

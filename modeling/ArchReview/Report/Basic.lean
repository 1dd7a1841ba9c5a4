import ArchReview.Outline.Reader
import ArchReview.Report.Framework
import ArchReview.Report.Metrics
import ArchReview.Rule.Coupling
import ArchReview.Rule.Design
import ArchReview.Rule.Drift
import ArchReview.Rule.Layering
import ArchReview.Rule.Recognition

/-!
# Reports

A report holds all that a review of a project finds. `Report.review` makes it from the outlines of
the files; every printed form is made from a report alone.
-/

namespace ArchReview

/-- A file that could not be read. -/
structure FileError where
  path : Path
  line : Option Nat
  message : String
  deriving DecidableEq, Repr, Inhabited

structure Report where
  projectName : String
  projectType : String
  violations : List Violation := []
  metrics : Metrics := {}
  patterns : List PatternFinding := []
  parseErrors : List FileError := []
  unresolvedImports : List UnresolvedImport := []
  analyzerFailures : List AnalyzerFailure := []
  deriving Repr, Inhabited

/-- The analyzers of a review. -/
def standardAnalyzers : List Analyzer :=
  [Solid.analyzer, Design.analyzer, Layering.analyzer, Coupling.analyzer]

namespace Report

/-- The violations that are at least as bad as `least`, in the order of the report. -/
def visible (r : Report) (least : Severity) : List Violation :=
  r.violations.filter fun v => v.severity.atLeast least

def countAtLeast (r : Report) (least : Severity) : Nat := (r.visible least).length

/-- The errors of the files that could not be read. -/
def errorsOf (files : List SourceOutline) : List FileError :=
  (files.filter fun f => !f.outline.succeeded).map fun f =>
    ⟨f.outline.path, f.outline.errorLine, f.outline.error.getD ""⟩

/-- Reviews files with the given analyzers; a list of patterns is what the project documents. -/
def reviewWith (analyzers : List Analyzer) (settings : Settings)
    (expected : Option (List PatternKind)) (files : List SourceOutline) : Report :=
  let project := Project.ofFiles files settings
  let (found, analyzerFailures) := runAnalyzers analyzers project
  let patterns := Recognition.recognize project
  let drift := match expected with
    | some kinds => Drift.check kinds (patterns.map PatternFinding.kind)
    | none       => []
  let violations := Violation.arrange (found ++ drift)
  { projectName := ""
    projectType := (Framework.guess (files.map SourceOutline.outline)).text
    violations
    metrics := Metrics.compute violations project
    patterns
    parseErrors := errorsOf files
    unresolvedImports := project.graph.unresolved
    analyzerFailures }

def review (settings : Settings) (expected : Option (List PatternKind))
    (files : List SourceOutline) : Report :=
  reviewWith standardAnalyzers settings expected files

end Report

/-- The reader that a review uses: all languages, files up to the size in the settings. -/
def Settings.reader (s : Settings) : Reader := { maxBytes := s.thresholds.maxFileBytes }

/-- Reviews sources as they are. -/
def reviewSources (settings : Settings) (sources : List SourceFile) : Report :=
  { Report.review settings none (sources.map settings.reader.read) with projectName := "project" }

end ArchReview

import ArchReview.Json.Write
import ArchReview.Report.Basic

/-!
# Reports as data

The records of a report as JSON. How a floating-point number is written is left to the caller.
-/

namespace ArchReview

open Json

def Violation.json (v : Violation) : Json :=
  object [
    ("id", string v.id),
    ("rule_id", string v.rule),
    ("category", string v.category.text),
    ("severity", string v.severity.text),
    ("title", string v.title),
    ("description", string v.description),
    ("file_path", string v.path.text),
    ("line", optional natural v.line),
    ("recommendation", string v.recommendation),
    ("details", object (v.details.map fun d => (d.1, string d.2)))]

def PatternFinding.json (p : PatternFinding) : Json :=
  object [
    ("kind", string p.kind.text),
    ("file_path", string p.path.text),
    ("line", natural p.line),
    ("subject", string p.subject),
    ("evidence", string p.evidence)]

def FileError.json (e : FileError) : Json :=
  object [
    ("file_path", string e.path.text),
    ("line", optional natural e.line),
    ("message", string e.message)]

def UnresolvedImport.json (u : UnresolvedImport) : Json :=
  object [
    ("source_file", string u.source.text),
    ("module_path", string u.modulePath),
    ("line", natural u.line),
    ("reason", string u.reason.text)]

def AnalyzerFailure.json (f : AnalyzerFailure) : Json :=
  object [("analyzer", string f.analyzer), ("message", string f.message)]

def ModuleCoupling.json (number : Float → Json) (m : ModuleCoupling) : Json :=
  object [
    ("path", string m.path.text),
    ("fan_in", natural m.fanIn),
    ("fan_out", natural m.fanOut),
    ("external_fan_out", natural m.externalFanOut),
    ("instability", number m.instability)]

def SolidScores.json (number : Float → Json) (s : SolidScores) : Json :=
  object [
    ("srp", number s.srp),
    ("ocp", number s.ocp),
    ("lsp", number s.lsp),
    ("isp", number s.isp),
    ("dip", number s.dip),
    ("overall", number s.overall)]

def CouplingMetrics.json (number : Float → Json) (c : CouplingMetrics) : Json :=
  object [
    ("avg_fan_out", number c.avgFanOut),
    ("max_fan_out", natural c.maxFanOut),
    ("top_coupled_modules", array (c.topCoupledModules.map (ModuleCoupling.json number))),
    ("edge_count", natural c.edgeCount),
    ("cycle_count", natural c.cycleCount)]

def Metrics.json (number : Float → Json) (m : Metrics) : Json :=
  object [
    ("overall_score", natural m.overallScore),
    ("solid_scores", m.solidScores.json number),
    ("coupling", m.coupling.json number),
    ("files_analyzed", natural m.filesAnalyzed),
    ("files_failed", natural m.filesFailed),
    ("by_severity", object (m.bySeverity.map fun e => (e.1.text, natural e.2))),
    ("by_category", object (m.byCategory.map fun e => (e.1.text, natural e.2)))]

namespace Report

/-- The version of the report's form. -/
def version : String := "0.3.0"

/-- The members of a report, with some of its violations. -/
def members (r : Report) (number : Float → Json) (shown : List Violation) : List (String × Json) :=
  [("project_name", string r.projectName),
   ("project_type", string r.projectType),
   ("metrics", r.metrics.json number),
   ("violations", array (shown.map Violation.json)),
   ("patterns", array (r.patterns.map PatternFinding.json)),
   ("parse_errors", array (r.parseErrors.map FileError.json)),
   ("unresolved_imports", array (r.unresolvedImports.map UnresolvedImport.json)),
   ("analyzer_failures", array (r.analyzerFailures.map AnalyzerFailure.json))]

/-- The report as one document, with the violations at least as bad as `least`. -/
def document (r : Report) (least : Severity) : Json :=
  object (("version", string version) :: r.members real (r.visible least))

def compactJson (r : Report) (least : Severity) : String := (r.document least).compact ++ "\n"

def prettyJson (r : Report) (least : Severity) : String := (r.document least).pretty ++ "\n"

end Report

end ArchReview

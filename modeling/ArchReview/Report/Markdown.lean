import ArchReview.Report.Basic

/-!
# Reports for people

Two forms in Markdown: the whole report, and a list of tasks. Both are lists of lines; every line
ends in a line break.
-/

namespace ArchReview

/-- Where a violation is: a file, with a line if there is one, or the project. -/
def Violation.location (v : Violation) : String :=
  let place := if v.path.text.isEmpty then "(project)" else v.path.text
  match v.line with
  | some line => s!"{place}:{line}"
  | none      => place

def Severity.marker : Severity → String
  | critical => "🔴"
  | high     => "🟠"
  | medium   => "🟡"
  | low      => "🔵"

namespace Report

/-- The text of some lines. -/
def ofLines (lines : List String) : String := String.join (lines.map fun l => l ++ "\n")

/-- A section with a heading and a blank line after it, left out when there is nothing in it. -/
def headed (heading : String) (body : List String) : List String :=
  if body.isEmpty then [] else [heading, ""] ++ body ++ [""]

/-! ### The whole report -/

def summaryLines (m : Metrics) : List String :=
  let counts := Severity.all.map fun s =>
    let n := ((m.bySeverity.find? fun e => e.1 == s).map fun e => e.2).getD 0
    s!"{n} {s.text}"
  ["## Summary", "",
   s!"- **Overall score:** {m.overallScore}/100",
   s!"- **SOLID score:** {Decimal.fixed 0 m.solidScores.overall}/100",
   s!"- **Files analyzed:** {m.filesAnalyzed} ({m.filesFailed} failed to parse)",
   "- **Violations:** " ++ ", ".intercalate counts, ""]

def solidLines (s : SolidScores) : List String :=
  ["### SOLID", "", "| Principle | Score |", "|---|---|"] ++
  ([("Single Responsibility", s.srp), ("Open/Closed", s.ocp), ("Liskov Substitution", s.lsp),
    ("Interface Segregation", s.isp), ("Dependency Inversion", s.dip)].map fun (name, score) =>
      s!"| {name} | {Decimal.fixed 0 score} |") ++ [""]

def moduleLine (m : ModuleCoupling) : String :=
  s!"| `{m.path.text}` | {m.fanIn} | {m.fanOut} | {m.externalFanOut} | " ++
    s!"{Decimal.fixed 2 m.instability} |"

def couplingLines (c : CouplingMetrics) : List String :=
  ["### Coupling", "",
   s!"- {c.edgeCount} internal edges, {c.cycleCount} cycle(s), average fan-out " ++
     s!"{Decimal.fixed 1 c.avgFanOut}, max fan-out {c.maxFanOut}", ""] ++
  if c.topCoupledModules.isEmpty then []
  else ["| Module | Fan-in | Fan-out | External | Instability |", "|---|---|---|---|---|"] ++
    c.topCoupledModules.map moduleLine ++ [""]

def categoryHeading : Category → String
  | .solid    => "SOLID Principles"
  | .pattern  => "Patterns & Anti-Patterns"
  | .layer    => "Layer Separation"
  | .coupling => "Coupling"

/-- The order of the categories in the report. -/
def shownCategories : List Category := [.layer, .coupling, .solid, .pattern]

def violationLines (v : Violation) : List String :=
  [s!"- {v.severity.marker} **{v.id}** `{v.rule}` {v.title} (`{v.location}`)"] ++
  (if v.description.isEmpty then [] else ["  " ++ v.description]) ++
  (if v.recommendation.isEmpty then [] else ["  → " ++ v.recommendation])

def violationSections (violations : List Violation) : List String :=
  if violations.isEmpty then ["## No Violations Found", ""]
  else ["## Violations", ""] ++ shownCategories.flatMap fun c =>
    headed ("### " ++ categoryHeading c)
      ((violations.filter fun v => v.category == c).flatMap violationLines)

def patternLine (p : PatternFinding) : String :=
  s!"- **{p.kind.title}**: `{p.subject}` in `{p.path.text}:{p.line}` ({p.evidence})"

def errorLine (e : FileError) : String :=
  let line := match e.line with
    | some n => s!":{n}"
    | none   => ""
  s!"- `{e.path.text}{line}`: {e.message}"

/-- How many missing imports are listed. -/
def maxMissing : Nat := 20

def missingLines (missing : List UnresolvedImport) : List String :=
  ((missing.take maxMissing).map fun u =>
    s!"- `{u.source.text}:{u.line}` imports `{u.modulePath}`, which is not among the analyzed files")
  ++ if missing.length > maxMissing then [s!"- ... and {missing.length - maxMissing} more"] else []

def unresolvedLines (unresolved : List UnresolvedImport) : List String :=
  let missing := unresolved.filter fun u => u.reason == .missingTarget
  let external := unresolved.length - missing.length
  headed "## Unresolved Imports" (missingLines missing) ++
    if external > 0 then [s!"_{external} external package import(s) not analyzed._", ""] else []

/-- The report in full, with the violations at least as bad as `least`. -/
def markdown (r : Report) (least : Severity) : String :=
  ofLines <|
    [s!"# Architecture Assessment: {r.projectName}", "",
     s!"**Project type:** {r.projectType}", ""] ++
    summaryLines r.metrics ++ solidLines r.metrics.solidScores ++
    couplingLines r.metrics.coupling ++
    violationSections (r.visible least) ++
    headed "## Recognized Patterns" (r.patterns.map patternLine) ++
    headed "## Parse Errors" (r.parseErrors.map errorLine) ++
    unresolvedLines r.unresolvedImports ++
    headed "## Analyzer Failures"
      (r.analyzerFailures.map fun f => s!"- **{f.analyzer}**: {f.message}")

/-! ### Tasks -/

def taskLines (v : Violation) : List String :=
  [s!"- [ ] **{v.rule}** {v.id}: {v.title} (`{v.location}`)"] ++
  (if v.recommendation.isEmpty then [] else ["  - " ++ v.recommendation])

def taskGroup (violations : List Violation) (s : Severity) : List String :=
  let group := violations.filter fun v => v.severity == s
  headed s!"## {s.text} ({group.length})" (group.flatMap taskLines)

def errorTasks (errors : List FileError) : List String :=
  if errors.isEmpty then []
  else ["## Fix parse errors", ""] ++ errors.map fun e => s!"- [ ] `{e.path.text}`: {e.message}"

/-- One task for each violation, the worst first; files that could not be read come last, and only
beside violations. -/
def tasks (r : Report) (least : Severity) : String :=
  let violations := r.visible least
  ofLines <|
    [s!"# Refactoring Tasks: {r.projectName}", ""] ++
    if violations.isEmpty then ["Nothing to do."]
    else Severity.all.flatMap (taskGroup violations) ++ errorTasks r.parseErrors

end Report

end ArchReview

import ArchReview.Graph.Cycles
import ArchReview.Graph.Chains
import ArchReview.Settings.Basic
import ArchReview.Violation.Basic

/-!
# What the rules look at

A project is its files with their outlines, the graph of their imports and its settings. An
analyzer looks for violations of some rules and may fail to do so.
-/

namespace ArchReview

structure Project where
  files : List SourceOutline
  graph : Graph
  settings : Settings
  deriving Inhabited

namespace Project

def ofFiles (files : List SourceOutline) (settings : Settings) : Project where
  files
  graph := Graph.ofOutlines (files.map SourceOutline.outline) settings.selfLoops
  settings

/-- The files that could be read. -/
def parsed (p : Project) : List SourceOutline := p.files.filter fun f => f.outline.succeeded

/-- What a rule for single files finds in all files that could be read. -/
def inEachFile (p : Project) (find : SourceOutline → List Violation) : List Violation :=
  p.parsed.flatMap find

/-- What a rule for single files finds, unless there is a reason not to look. -/
def inEachFileUnless (p : Project) (refusal : Option String)
    (find : SourceOutline → List Violation) : Except String (List Violation) :=
  match refusal with
  | some reason => .error reason
  | none        => .ok (p.inEachFile find)

theorem inEachFileUnless_eq (p : Project) (refusal : Option String)
    (find : SourceOutline → List Violation) :
    p.inEachFileUnless refusal find = refusal.elim (.ok (p.inEachFile find)) .error := by
  cases refusal <;> rfl

end Project

structure Analyzer where
  name : String
  /-- The violations, or why there are none to tell. -/
  run : Project → Except String (List Violation)

structure AnalyzerFailure where
  analyzer : String
  message : String
  deriving DecidableEq, Repr, Inhabited

/-- Runs analyzers one after the other. One that fails contributes its failure and nothing else. -/
def runAnalyzers (analyzers : List Analyzer) (p : Project) :
    List Violation × List AnalyzerFailure :=
  let outcomes := analyzers.map fun a => (a.name, a.run p)
  (outcomes.flatMap fun o => match o.2 with
    | .ok found => found
    | .error _  => [],
   outcomes.filterMap fun o => match o.2 with
    | .ok _         => none
    | .error reason => some ⟨o.1, s!"{o.1} analyzer failed: {reason}"⟩)

end ArchReview

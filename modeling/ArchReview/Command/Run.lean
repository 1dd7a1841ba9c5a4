import ArchReview.Command.Arguments
import ArchReview.Report.Document
import ArchReview.Report.Markdown
import ArchReview.Workspace.Review

/-!
# Running commands

A command leaves an exit code and texts on two channels, besides the files it writes. The report
goes to one channel, all else to the other.
-/

namespace ArchReview

variable {m : Type → Type} [Monad m]

structure Outcome where
  exit : Nat
  output : String := ""
  messages : List String := []
  deriving DecidableEq, Repr, Inhabited

def Outcome.messageText (o : Outcome) : String := String.join (o.messages.map fun l => l ++ "\n")

/-! ### Analyze -/

def AnalyzeArguments.options (a : AnalyzeArguments) : ReviewOptions where
  languages := a.languages.getD []
  settingsPath := a.settings
  useCache := !a.noCache
  selfLoops := a.selfLoops
  expectedPatterns := a.expectedPatterns

def Report.render (r : Report) (format : OutputFormat) (least : Severity) : String :=
  match format with
  | .markdown => r.markdown least
  | .json     => r.prettyJson least
  | .tasks    => r.tasks least

/-- What is said of a report besides the report itself. -/
def Report.warnings (r : Report) : List String :=
  (if r.parseErrors.isEmpty then []
   else [s!"warning: {r.parseErrors.length} file(s) could not be parsed"]) ++
  r.analyzerFailures.map fun f => s!"warning: {f.analyzer} analyzer failed: {f.message}"

/-- One if a violation is at least as bad as asked for. -/
def Report.exitCode (r : Report) (failOn : Severity) : Nat :=
  if r.countAtLeast failOn > 0 then 1 else 0

def analyze (fs : FileAccess m) (a : AnalyzeArguments) : m Outcome := do
  match ← reviewPath fs a.path a.options with
  | .error (.settings fault) =>
    return {
      exit := 2
      messages := ["error: " ++ fault.message,
        "hint: run `archaudit init` to generate a valid starter configuration"] }
  | .error fault             => return { exit := 2, messages := ["error: " ++ fault.message] }
  | .ok report               =>
    let text := report.render a.format a.minSeverity
    let exit := report.exitCode a.failOn
    match a.output with
    | none      => return { exit, output := text, messages := report.warnings }
    | some path =>
      match ← fs.write path text with
      | .error e => return { exit := 2, messages := ["error: Failed to write output: " ++ e.message] }
      | .ok ()   =>
        return { exit, messages := s!"✓ Report written to {path.text}" :: report.warnings }

/-! ### Init -/

/-- Writes a starter settings file, unless there is one. -/
def initProject (fs : FileAccess m) (path : Path) : m Outcome := do
  let target := path.join ⟨settingsFile⟩
  if ← fs.exists? target then
    return {
      exit := 1, messages := [s!"error: {settingsFile} already exists at {target.text}"] }
  match ← fs.write target Settings.starter with
  | .error e =>
    return { exit := 1, messages := ["error: Failed to write config file: " ++ e.message] }
  | .ok ()   => return { exit := 0, messages := [s!"✓ Created {settingsFile} at {target.text}"] }

/-! ### Commands -/

/-- Runs a command line; without a command, the path is analysed. -/
def run (fs : FileAccess m) (a : Arguments) : m Outcome :=
  match a.command with
  | some (.analyze arguments) => analyze fs arguments
  | some (.init path)         => initProject fs path
  | none                      => analyze fs { path := a.path }

end ArchReview

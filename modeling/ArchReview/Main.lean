import ArchReview.Command.Run

/-!
# The program

Gives commands the files of the system, and puts what they say on the standard channels.
-/

namespace ArchReview

/-- Why the system refused an operation on a file. -/
def FileFault.ofError : IO.Error → FileFault
  | .noFileOrDirectory .. => .notFound
  | e                     => .other (toString e)

def attempt {α : Type} (action : IO α) : IO (Except FileFault α) := do
  match ← action.toBaseIO with
  | .ok a    => return .ok a
  | .error e => return .error (.ofError e)

/-- Access to the files of the system. -/
def systemFiles : FileAccess IO where
  canonical? path := do
    let found ← attempt (IO.FS.realPath path.text)
    return found.toOption.map fun p => ⟨p.toString⟩
  kind? path := do
    let found ← attempt do (← IO.FS.realPath path.text).metadata
    return found.toOption.bind fun data => match data.type with
      | .file => some .file
      | .dir  => some .folder
      | _     => none
  list path := do
    let found ← attempt do (← IO.FS.realPath path.text).readDir
    return found.toOption.elim [] fun entries => (entries.map fun e => e.fileName).toList
  read path := attempt (IO.FS.readBinFile path.text)
  write path text := attempt (IO.FS.writeFile path.text text)

/-! ### Usage -/

def versionText : String := "archaudit " ++ Report.version

def helpText : String :=
  "\n".intercalate [
    "Assess the architecture of Python and JavaScript/TypeScript codebases",
    "",
    "Usage: archaudit [OPTIONS] [PATH] [COMMAND]",
    "",
    "Commands:",
    "  analyze  Run a full architecture assessment (default behavior)",
    "  init     Generate a starter .archaudit.toml configuration file",
    "",
    "Options of analyze:",
    "  -f, --format <FORMAT>              markdown, json or tasks",
    "  -o, --output <OUTPUT>              Output file (defaults to stdout)",
    "      --min-severity <SEVERITY>      Minimum severity to report",
    "      --fail-on <SEVERITY>           Exit with code 1 at or above this severity",
    "  -c, --config <CONFIG>              Config file (defaults to <path>/.archaudit.toml)",
    "      --lang <LANG>                  Languages to analyze (python,typescript)",
    "      --no-cache                     Do not read or write the parse cache",
    "      --self-loops <SELF_LOOPS>      How a module importing itself is treated",
    "      --expected-patterns <FILE>     Expected-patterns document for the drift check",
    "",
    "Options:",
    "  -v, --verbose...  Increase log verbosity (-v debug, -vv trace)",
    "  -h, --help        Print help",
    "  -V, --version     Print version"]

/-- What is said of a command line that is not followed. -/
def UsageFault.outcome : UsageFault → Outcome
  | displayHelp       => { exit := 0, output := helpText ++ "\n" }
  | displayVersion    => { exit := 0, output := versionText ++ "\n" }
  | invalidValue      => refusal "invalid value for an option"
  | valueValidation   => refusal "invalid value for an option"
  | unknownArgument   => refusal "unexpected argument found"
  | invalidSubcommand => refusal "unrecognized subcommand"
  | argumentConflict  => refusal "an option cannot be used multiple times"
  | tooManyValues     => refusal "unexpected value for an option"
where
  refusal (reason : String) : Outcome :=
    { exit := 2, messages := ["error: " ++ reason, "", "For more information, try '--help'."] }

end ArchReview

/-- Follows the command line. -/
def main (arguments : List String) : IO UInt32 := do
  let outcome ← match ArchReview.Arguments.parse arguments with
    | .ok a        => ArchReview.run ArchReview.systemFiles a
    | .error fault => pure fault.outcome
  (← IO.getStdout).putStr outcome.output
  (← IO.getStderr).putStr outcome.messageText
  return outcome.exit.toUInt32

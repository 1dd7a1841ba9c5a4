import ArchReview.Graph.Basic
import ArchReview.Text.Similar
import ArchReview.Violation.Basic

/-!
# Command lines

A command line names a command with its options. Options are read from left to right; the value of
an option that stands apart from it is checked when the next option starts, so an unknown option
right after it is reported first.
-/

namespace ArchReview

inductive OutputFormat where
  | markdown
  | json
  | tasks
  deriving DecidableEq, Repr, Inhabited

def OutputFormat.ofName? : String → Option OutputFormat
  | "markdown" => some .markdown
  | "json"     => some .json
  | "tasks"    => some .tasks
  | _          => none

structure AnalyzeArguments where
  path : Path := ⟨"."⟩
  format : OutputFormat := .markdown
  output : Option Path := none
  minSeverity : Severity := .low
  failOn : Severity := .critical
  settings : Option Path := none
  languages : Option (List String) := none
  noCache : Bool := false
  selfLoops : Option SelfLoops := none
  expectedPatterns : Option Path := none
  deriving DecidableEq, Repr, Inhabited

inductive Command where
  | analyze (arguments : AnalyzeArguments)
  | init (path : Path)
  deriving DecidableEq, Repr, Inhabited

structure Arguments where
  path : Path := ⟨"."⟩
  verbosity : Nat := 0
  command : Option Command := none
  deriving DecidableEq, Repr, Inhabited

/-- Why a command line is not followed. Help and version are answers of their own. -/
inductive UsageFault where
  | invalidValue
  | valueValidation
  | unknownArgument
  | invalidSubcommand
  | argumentConflict
  | tooManyValues
  | displayHelp
  | displayVersion
  deriving DecidableEq, Repr, Inhabited

/-! ### Options -/

inductive Switch where
  | verbose
  | help
  | version
  | format
  | output
  | minSeverity
  | failOn
  | settings
  | languages
  | noCache
  | selfLoops
  | expectedPatterns
  deriving DecidableEq, Repr, Inhabited

namespace Switch

def long : Switch → String
  | verbose          => "verbose"
  | help             => "help"
  | version          => "version"
  | format           => "format"
  | output           => "output"
  | minSeverity      => "min-severity"
  | failOn           => "fail-on"
  | settings         => "config"
  | languages        => "lang"
  | noCache          => "no-cache"
  | selfLoops        => "self-loops"
  | expectedPatterns => "expected-patterns"

def short? : Switch → Option Char
  | verbose  => some 'v'
  | help     => some 'h'
  | version  => some 'V'
  | format   => some 'f'
  | output   => some 'o'
  | settings => some 'c'
  | _        => none

def takesValue : Switch → Bool
  | verbose | help | version | noCache => false
  | _                                  => true

/-- The options in front of a command. -/
def ofProgram : List Switch := [verbose, help, version]

def ofAnalyze : List Switch :=
  [format, output, minSeverity, failOn, settings, languages, noCache, selfLoops,
   expectedPatterns, verbose, help]

def ofInit : List Switch := [verbose, help]

end Switch

/-! ### Reading -/

/-- What is still to be checked. -/
inductive Pending where
  | nothing
  | needsValue (s : Switch)
  | hasValue (s : Switch) (value : String)
  | position (value : String)
  deriving DecidableEq, Repr, Inhabited

/-- How far a command line has been read. -/
structure Reading where
  known : List Switch
  given : AnalyzeArguments := {}
  seen : List Switch := []
  verbosity : Nat := 0
  pending : Pending := .nothing
  positions : Nat := 0
  /-- Only positions follow. -/
  onlyPositions : Bool := false
  deriving Repr, Inhabited

namespace Reading

def pathValue (value : String) : Except UsageFault Path :=
  if value.isEmpty then .error .invalidValue else .ok ⟨value⟩

def checked {α : Type} (fault : UsageFault) : Option α → Except UsageFault α
  | some a => .ok a
  | none   => .error fault

/-- Sets an option to a value. -/
def setValue (s : Switch) (value : String) (a : AnalyzeArguments) :
    Except UsageFault AnalyzeArguments := do
  match s with
  | .format           =>
    return { a with format := ← checked .invalidValue (OutputFormat.ofName? value) }
  | .output           => return { a with output := some (← pathValue value) }
  | .minSeverity      =>
    return { a with minSeverity := ← checked .valueValidation (Severity.ofName? value) }
  | .failOn           =>
    return { a with failOn := ← checked .valueValidation (Severity.ofName? value) }
  | .settings         => return { a with settings := some (← pathValue value) }
  | .languages        =>
    return { a with languages := some (a.languages.getD [] ++ Text.splitOnChar ',' value) }
  | .selfLoops        =>
    return { a with selfLoops := some (← checked .valueValidation (SelfLoops.ofName? value)) }
  | .expectedPatterns => return { a with expectedPatterns := some (← pathValue value) }
  | _                 => return a

/-- Gives an option its value. Only languages may be given more than once. -/
def give (r : Reading) (s : Switch) (value : String) : Except UsageFault Reading := do
  if s != .languages && r.seen.contains s then throw .argumentConflict
  return { r with given := ← setValue s value r.given, seen := s :: r.seen }

/-- Checks what is pending. -/
def settle (r : Reading) : Except UsageFault Reading := do
  let clear := { r with pending := .nothing }
  match r.pending with
  | .nothing        => return r
  | .needsValue _   => throw .invalidValue
  | .hasValue s v   => clear.give s v
  | .position v     => return { clear with given := { r.given with path := ← pathValue v } }

/-- Follows an option without a value. -/
def flag (r : Reading) (s : Switch) : Except UsageFault Reading := do
  let r ← r.settle
  match s with
  | .help    => throw .displayHelp
  | .version => throw .displayVersion
  | .verbose => return { r with verbosity := r.verbosity + 1, seen := s :: r.seen }
  | s        =>
    if r.seen.contains s then throw .argumentConflict
    return { r with given := { r.given with noCache := true }, seen := s :: r.seen }

/-- An option that waits for its value. -/
def await (r : Reading) (s : Switch) : Except UsageFault Reading :=
  return { ← r.settle with pending := .needsValue s }

/-- Follows an option by its long name, with a value if there is an equals sign. -/
def long (r : Reading) (text : List Char) : Except UsageFault Reading := do
  let name := String.ofList (text.takeWhile (· != '='))
  let value := (text.dropWhile (· != '=')).tail
  match r.known.find? fun s => s.long == name with
  | none   => throw .unknownArgument
  | some s =>
    if !text.contains '=' then if s.takesValue then r.await s else r.flag s
    else if s.takesValue then (← r.settle).give s (String.ofList value)
    else throw .tooManyValues

/-- Follows options by their letters; the letters after one that takes a value are the value. -/
def letters (r : Reading) : List Char → Except UsageFault Reading
  | []      => return r
  | c :: cs => do
    match r.known.find? fun s => s.short? == some c with
    | none   => throw .unknownArgument
    | some s =>
      if !s.takesValue then letters (← r.flag s) cs
      else match cs with
        | []          => r.await s
        | '=' :: rest => (← r.settle).give s (String.ofList rest)
        | rest        => (← r.settle).give s (String.ofList rest)

/-- Takes the one position there is. -/
def position (r : Reading) (arg : String) : Except UsageFault Reading := do
  if r.positions > 0 then throw .unknownArgument
  return { ← r.settle with pending := .position arg, positions := 1 }

/-- Reads one argument. -/
def argument (r : Reading) (arg : String) : Except UsageFault Reading :=
  if r.onlyPositions then r.position arg
  else match arg.toList with
    | ['-', '-']         => .ok { r with onlyPositions := true }
    | '-' :: '-' :: text => r.long text
    | '-' :: c :: cs     => r.letters (c :: cs)
    | _                  =>
      match r.pending with
      | .needsValue s => .ok { r with pending := .hasValue s arg }
      | _             => r.position arg

def arguments (r : Reading) (args : List String) : Except UsageFault Reading := do
  (← args.foldlM argument r).settle

end Reading

/-! ### Whole command lines -/

def commandNames : List String := ["analyze", "init", "help"]

/-- A word that is close to the name of a command. -/
def resemblesCommand (word : String) : Bool :=
  commandNames.any fun name => Text.similarity word.toList name.toList > 0.7

/-- Asking for help on something. Only commands have help. -/
def helpFault (args : List String) : UsageFault :=
  match args with
  | []     => .displayHelp
  | [name] => if commandNames.contains name then .displayHelp else .invalidSubcommand
  | _      => .invalidSubcommand

namespace Arguments

/-- The options of a command; those in front of it count as well. -/
def withCommand (program : Reading) (name : String) (args : List String) :
    Except UsageFault Arguments := do
  let known := if name == "analyze" then Switch.ofAnalyze else Switch.ofInit
  let r ← ({ known : Reading }).arguments args
  return {
    path := program.given.path
    verbosity := if r.seen.contains .verbose then r.verbosity else program.verbosity
    command := some (if name == "analyze" then .analyze r.given else .init r.given.path) }

/-- Reads what precedes a command, and the command. -/
def parseFrom (r : Reading) : List String → Except UsageFault Arguments
  | []          => do
    let r ← r.settle
    return { path := r.given.path, verbosity := r.verbosity }
  | arg :: args => do
    if !r.onlyPositions && commandNames.contains arg then
      let r ← r.settle
      if arg == "help" then throw (helpFault args)
      withCommand r arg args
    else
      match r.argument arg with
      | .ok r                   => parseFrom r args
      | .error .unknownArgument =>
        -- A second word that looks like a command was meant as one.
        if (r.onlyPositions || !Text.startsWith arg "-" || arg == "-") && resemblesCommand arg then
          throw .invalidSubcommand
        else throw .unknownArgument
      | .error fault            => throw fault

def parse (args : List String) : Except UsageFault Arguments :=
  parseFrom { known := Switch.ofProgram } args

end Arguments

end ArchReview

import ArchReview.Decimal.Read
import ArchReview.Rule.Solid

/-!
# Smells of design

Long and complex functions, large classes, magic numbers, unused imports, repeated construction,
switches that ask for a strategy, and globals that several functions write.
-/

namespace ArchReview.Design

/-! ### Functions and classes -/

/-- Functions by name, then methods with the name of their class in front. -/
def qualifiedFunctions (o : Outline) : List (String × FunctionDef) :=
  (o.functions.map fun f => (f.name, f)) ++
    o.classes.flatMap fun c => c.methods.map fun m => (c.name ++ "." ++ m.name, m)

def longMethods (t : Thresholds) (o : Outline) : List Violation :=
  ((qualifiedFunctions o).filter fun e => e.2.length > t.longMethodLines).map fun (name, f) =>
    { rule := "PAT-001"
      category := .pattern
      severity := .medium
      title := s!"Long method: {name}"
      description := s!"`{name}` is {f.length} lines long (limit {t.longMethodLines})."
      path := o.path
      line := some f.startLine
      recommendation := "Extract cohesive blocks into well-named helper functions."
      details := Text.table [("function", name), ("lines", toString f.length)] }

def complexMethods (t : Thresholds) (o : Outline) : List Violation :=
  ((qualifiedFunctions o).filter fun e => e.2.complexity > t.complexMethodBranches).map
    fun (name, f) =>
      { rule := "PAT-002"
        category := .pattern
        severity := .medium
        title := s!"Complex method: {name}"
        description :=
          s!"`{name}` has cyclomatic complexity {f.complexity} (limit {t.complexMethodBranches})."
        path := o.path
        line := some f.startLine
        recommendation :=
          "Flatten nested conditionals with early returns or split the decision logic."
        details := Text.table [("function", name), ("complexity", toString f.complexity)] }

def godClasses (t : Thresholds) (o : Outline) : List Violation :=
  (o.classes.filter fun c => c.length > t.maxClassLoc || c.methodCount > t.maxMethodCount).map
    fun c =>
      { rule := "PAT-003"
        category := .pattern
        severity := .high
        title := s!"God Class: {c.name}"
        description := s!"`{c.name}` has {c.length} lines and {c.methodCount} methods."
        path := o.path
        line := some c.startLine
        recommendation := "Break the class up; move each responsibility behind its own type."
        details := Text.table
          [("class", c.name), ("loc", toString c.length),
           ("method_count", toString c.methodCount)] }

/-! ### Magic numbers -/

/-- Zero, one and minus one need no name. -/
def isTrivial (value : String) : Bool :=
  match Decimal.read? (String.ofList (value.toList.filter (· != '_'))) with
  | some x => x == 0.0 || x == 1.0 || x == -1.0
  | none   => false

/-- The literals that ought to have a name. -/
def unnamed (o : Outline) : List NumberLiteral :=
  o.numbers.filter fun n => !n.inConstant && !isTrivial n.value

/-- Puts a line into an ascending list without repetitions. -/
def insertLine (line : Nat) : List Nat → List Nat
  | []      => [line]
  | l :: ls =>
    if line < l then line :: l :: ls
    else if line == l then l :: ls
    else l :: insertLine line ls

/-- How many lines are shown as examples. -/
def maxExamples : Nat := 5

/-- One violation for all numbers that a file repeats. -/
def magicNumbers (t : Thresholds) (o : Outline) : List Violation :=
  let literals := unnamed o
  let values := (Text.nameSet (literals.map NumberLiteral.value)).filter fun v =>
    (literals.filter fun n => n.value == v).length ≥ t.magicNumberMinOccurrences
  let lines := (literals.filter fun n => values.contains n.value).foldl
    (fun ls n => insertLine n.line ls) []
  match lines with
  | []         => []
  | first :: _ =>
    let examples := (lines.take maxExamples).map toString
    [{ rule := "PAT-004"
       category := .pattern
       severity := .low
       title := "Magic numbers"
       description := "Literal values " ++ ", ".intercalate values ++
         " repeat across the file (lines " ++ ", ".intercalate examples ++ ")."
       path := o.path
       line := some first
       recommendation :=
         "Name the values as constants so their meaning and changes live in one place."
       details := Text.table
         [("values", ",".intercalate values), ("lines", ",".intercalate examples)] }]

/-! ### Imports -/

/-- Files that import in order to pass names on. -/
def isHub (path : Path) : Bool := path.stem? == some "__init__" || path.stem? == some "index"

/-- A name is used, or listed as text for others to use. -/
def isReferenced (o : Outline) (name : String) : Bool :=
  o.identifiers.contains name || o.strings.contains name

/-- The imports whose names a file is expected to use. -/
def bindsNames (i : Import) : Bool :=
  i.kind != .reExport && i.kind != .dynamic && i.modulePath != "__future__"

/-- The imported names that are never used, with the lines of their imports. -/
def unusedNames (o : Outline) : List (String × Nat) :=
  (o.imports.filter bindsNames).flatMap fun i =>
    (i.bindings.filter fun b => !isReferenced o b).map fun b => (b, i.line)

/-- One violation for all names that a file imports for nothing. -/
def unusedImports (o : Outline) : List Violation :=
  match if isHub o.path then [] else unusedNames o with
  | []     => []
  | unused@((_, line) :: _) =>
    let names := unused.map fun u => u.1
    [{ rule := "PAT-005"
       category := .pattern
       severity := .low
       title := "Unused imports"
       description := "Imported but never used: " ++ ", ".intercalate names ++ "."
       path := o.path
       line := some line
       recommendation := "Remove the unused imports."
       details := [("names", ",".intercalate names)] }]

/-! ### Construction and dispatch -/

/-- Classes that are often constructed, always with many arguments. -/
def factoryOpportunities (t : Thresholds) (o : Outline) : List Violation :=
  (Text.nameSet (o.instantiations.map Instantiation.className)).flatMap fun name =>
    let sites := o.instantiations.filter fun i => i.className == name
    match sites with
    | []         => []
    | first :: _ =>
      if sites.length ≥ t.factoryMinInstantiations &&
          sites.all fun i => i.argumentCount ≥ t.factoryMinArguments then
        [{ rule := "PAT-006"
           category := .pattern
           severity := .low
           title := s!"Factory opportunity: {name}"
           description := s!"`{name}` is constructed {sites.length} times with " ++
             s!"{t.factoryMinArguments}+ arguments each."
           path := o.path
           line := some first.line
           recommendation := "Centralize construction in a factory function or builder."
           details := Text.table [("class", name), ("instantiations", toString sites.length)] }]
      else []

def strategyOpportunities (t : Thresholds) (o : Outline) : List Violation :=
  (o.chains.filter fun c => c.branchCount ≥ t.strategyBranchThreshold && Solid.isTypeLike c).map
    fun chain =>
      let subject := Solid.subjectOf chain
      { rule := "PAT-007"
        category := .pattern
        severity := .low
        title := s!"Strategy opportunity on {subject}"
        description := s!"{chain.branchCount} branches dispatch on `{subject}`."
        path := o.path
        line := some chain.line
        recommendation := "Map each variant to a strategy object or handler function."
        details := [("branches", toString chain.branchCount)] }

/-! ### Global state -/

/-- Globals that more than one function writes. -/
def globalState (o : Outline) : List Violation :=
  (Text.nameSet (o.globalWrites.map GlobalWrite.name)).flatMap fun name =>
    let writes := o.globalWrites.filter fun w => w.name == name
    let functions := Text.nameSet (writes.map GlobalWrite.function)
    match writes with
    | []         => []
    | first :: _ =>
      if functions.length ≥ 2 then
        [{ rule := "PAT-008"
           category := .pattern
           severity := .medium
           title := s!"Mutable global: {name}"
           description := s!"Module state `{name}` is reassigned from " ++
             ", ".intercalate functions ++ "."
           path := o.path
           line := some (writes.foldl (fun l w => min l w.line) first.line)
           recommendation :=
             "Own the state in an object and pass it to the functions that need it."
           details := Text.table [("name", name), ("functions", ",".intercalate functions)] }]
      else []

/-! ### The analyzer -/

def inFile (t : Thresholds) (o : Outline) : List Violation :=
  longMethods t o ++ complexMethods t o ++ godClasses t o ++ magicNumbers t o ++
    unusedImports o ++ factoryOpportunities t o ++ strategyOpportunities t o ++ globalState o

def analyzer : Analyzer where
  name := "patterns"
  run p := .ok (p.inEachFile fun f => inFile p.settings.thresholds f.outline)

end ArchReview.Design

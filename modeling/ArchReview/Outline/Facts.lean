import ArchReview.Outline.Basic

/-!
# Facts of a syntax tree

`Facts` are what a syntax tree, or a part of one, declares and mentions. They are collected from
the parts and joined with `++`. They do not depend on where the file lies: an import is kept as it
is written, and placed when the outline of the file is made.
-/

namespace ArchReview

/-- An import as it is written. -/
structure ImportClause where
  modulePath : String
  importedNames : List String
  bindings : List String
  isRelative : Bool
  kind : ImportKind
  line : Nat
  deriving DecidableEq, Repr, Inhabited

structure Facts where
  imports : List ImportClause := []
  classes : List ClassDef := []
  /-- Functions that belong to no class. -/
  functions : List FunctionDef := []
  /-- Functions that belong to the class around the part. -/
  methods : List FunctionDef := []
  strings : List String := []
  chains : List Chain := []
  instantiations : List Instantiation := []
  numbers : List NumberLiteral := []
  identifiers : List String := []
  globalWrites : List GlobalWrite := []
  deriving Repr, Inhabited

namespace Facts

def append (a b : Facts) : Facts where
  imports        := a.imports ++ b.imports
  classes        := a.classes ++ b.classes
  functions      := a.functions ++ b.functions
  methods        := a.methods ++ b.methods
  strings        := a.strings ++ b.strings
  chains         := a.chains ++ b.chains
  instantiations := a.instantiations ++ b.instantiations
  numbers        := a.numbers ++ b.numbers
  identifiers    := a.identifiers ++ b.identifiers
  globalWrites   := a.globalWrites ++ b.globalWrites

instance : Append Facts := ⟨append⟩

def none : Facts := {}

end Facts

/-- The import of a file; `base` tells where a relative one points. -/
def ImportClause.place (file : Path) (base : Path → String → Path) (c : ImportClause) : Import where
  modulePath    := c.modulePath
  importedNames := c.importedNames
  bindings      := c.bindings
  isRelative    := c.isRelative
  resolvedBase  := if c.isRelative then some (base file.directory c.modulePath) else none
  kind          := c.kind
  sourceFile    := file
  line          := c.line

/-- The outline of a file with the given facts. -/
def Facts.outline (facts : Facts) (file : Path) (language : Language) (lineCount : Nat)
    (base : Path → String → Path) : Outline where
  path           := file
  language       := language
  lineCount      := lineCount
  imports        := facts.imports.map fun c => c.place file base
  classes        := facts.classes
  functions      := facts.functions
  strings        := facts.strings
  chains         := facts.chains
  instantiations := facts.instantiations
  numbers        := facts.numbers
  identifiers    := Text.nameSet facts.identifiers
  globalWrites   := facts.globalWrites

/-! ### Chains -/

/-- What one branch of a chain tests. -/
structure BranchTest where
  discriminant : Option String := none
  usesTypeCheck : Bool := false
  comparesLiteral : Bool := false
  deriving DecidableEq, Repr, Inhabited

/-- The chain of several branches. They share a discriminant if all of them test the same one. -/
def Chain.ofTests (line : Nat) (tests : List BranchTest) : Chain :=
  let first := tests.head?.bind fun t => t.discriminant
  let shared := first.filter fun d => tests.all fun t => t.discriminant == some d
  { line
    branchCount      := tests.length
    discriminant     := shared
    usesTypeCheck    := shared.isSome && tests.any fun t => t.usesTypeCheck
    comparesLiterals := tests.all fun t => t.comparesLiteral }

end ArchReview

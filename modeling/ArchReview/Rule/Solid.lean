import ArchReview.Rule.Marker
import ArchReview.Rule.Project
import ArchReview.Text.Search

/-!
# The five principles of class design

Single responsibility (size and cohesion of classes), open for extension (switches over kinds),
substitution (refused methods), interface segregation (wide and stubbed interfaces) and dependency
inversion (imports of low-level modules).
-/

namespace ArchReview.Solid

/-! ### Cohesion -/

/-- The unordered pairs of two positions of a list. -/
def pairs {α : Type} : List α → List (α × α)
  | []      => []
  | a :: as => as.map (fun b => (a, b)) ++ pairs as

/-- The fields that each method with an instance and a body mentions. -/
def fieldSets (c : ClassDef) : List (List String) :=
  (c.methods.filter fun m => !m.isStatic && !m.isAbstract).map FunctionDef.instanceFields

def shares (a b : List String) : Bool := a.any b.contains

/-- The number of pairs of methods that mention a common field. -/
def sharingPairs (sets : List (List String)) : Nat :=
  ((pairs sets).filter fun p => shares p.1 p.2).length

/-- The share of pairs of methods that have no field in common. A class with fewer than two
methods, or none that mentions a field, counts as cohesive. -/
def lcom (c : ClassDef) : Float :=
  let sets := fieldSets c
  if sets.length < 2 || sets.all List.isEmpty then 0.0
  else 1.0 - (sharingPairs sets).toFloat / (pairs sets).length.toFloat

/-! ### Single responsibility -/

def largeClass (t : Thresholds) (path : Path) (c : ClassDef) : List Violation :=
  if c.length > t.maxClassLoc then
    [{ rule := "SRP-001"
       category := .solid
       severity := .high
       title := s!"God Class: {c.name}"
       description := s!"Class `{c.name}` spans {c.length} lines (limit {t.maxClassLoc}), a sign it " ++
         "carries more than one responsibility."
       path
       line := some c.startLine
       recommendation :=
         "Split the class along its responsibilities into smaller collaborating classes."
       details := Text.table
         [("class", c.name), ("loc", toString c.length), ("threshold", toString t.maxClassLoc)] }]
  else []

def manyMethods (t : Thresholds) (path : Path) (c : ClassDef) : List Violation :=
  if c.methodCount > t.maxMethodCount then
    [{ rule := "SRP-002"
       category := .solid
       severity := .medium
       title := s!"Too many methods: {c.name}"
       description := s!"Class `{c.name}` defines {c.methodCount} methods (limit {t.maxMethodCount})."
       path
       line := some c.startLine
       recommendation := "Group related methods and extract them into dedicated classes."
       details := Text.table
         [("class", c.name), ("method_count", toString c.methodCount),
          ("threshold", toString t.maxMethodCount)] }]
  else []

def lowCohesion (t : Thresholds) (path : Path) (c : ClassDef) : List Violation :=
  let score := lcom c
  if !c.isInterface && score > t.lcomThreshold then
    let shown := Decimal.fixed 2 score
    let limit := Decimal.fixed 2 t.lcomThreshold
    [{ rule := "SRP-003"
       category := .solid
       severity := .medium
       title := s!"Low cohesion: {c.name}"
       description :=
         s!"Methods of `{c.name}` rarely share instance fields (LCOM {shown}, limit {limit})."
       path
       line := some c.startLine
       recommendation := "Move methods that use disjoint fields into separate classes."
       details := Text.table [("class", c.name), ("lcom", shown)] }]
  else []

def singleResponsibility (t : Thresholds) (o : Outline) : List Violation :=
  o.classes.flatMap fun c =>
    largeClass t o.path c ++ manyMethods t o.path c ++ lowCohesion t o.path c

/-! ### Open for extension -/

/-- Words for what a value is rather than what it says. -/
def kindWords : List String :=
  ["type", "kind", "mode", "strategy", "format", "action", "category", "variant", "provider",
   "channel", "command"]

/-- A text that names a kind: it holds one of the words, or `op` on its own. -/
def namesKind (text : String) : Bool :=
  (kindWords.any fun w => Text.hasPhrase (w.toList.map .letter) text.toList) ||
    Text.hasPhrase (Text.Piece.word "op") text.toList

/-- A chain that chooses by type, kind or tag. -/
def isTypeLike (chain : Chain) : Bool :=
  chain.usesTypeCheck || (chain.discriminant.isSome && chain.comparesLiterals) ||
    chain.discriminant.any namesKind

/-- What a chain chooses by, in words. -/
def subjectOf (chain : Chain) : String := chain.discriminant.getD "a type tag"

/-- The numbers from `low` to `high`. -/
def upTo (low high : Nat) : List Nat := (List.range (high + 1 - low)).map (low + ·)

/-- One violation for each count from the threshold to the number of branches, so that a growing
switch counts more and more. -/
def openClosed (t : Thresholds) (o : Outline) : List Violation :=
  (o.chains.filter isTypeLike).flatMap fun chain =>
    (upTo t.strategyBranchThreshold chain.branchCount).map fun crossed =>
      { rule := "OCP-001"
        category := .solid
        severity := .medium
        title := s!"Type switch reached {crossed} branches"
        description := s!"Conditional on `{subjectOf chain}` has {chain.branchCount} branches; each " ++
          "new variant means editing this code."
        path := o.path
        line := some chain.line
        recommendation := "Replace the branches with polymorphism or a strategy lookup table."
        details := Text.table
          [("branches", toString chain.branchCount), ("threshold", toString crossed)] }

/-! ### Substitution -/

def refusedBequests (path : Path) (c : ClassDef) : List Violation :=
  if !c.isSubclass || c.isInterface then []
  else (c.methods.filter fun m => m.raisesNotImplemented && !m.isAbstract).map fun m =>
    { rule := "LSP-001"
      category := .solid
      severity := .high
      title := s!"Refused bequest: {c.name}.{m.name}"
      description := s!"`{c.name}` extends " ++ ", ".intercalate c.bases ++
        s!" but `{m.name}` unconditionally raises not-implemented, so it cannot stand in for its base."
      path
      line := some m.startLine
      recommendation :=
        "Implement the method, or stop inheriting behavior the subclass cannot honor."
      details := Text.table [("class", c.name), ("method", m.name)] }

def substitution (o : Outline) : List Violation := o.classes.flatMap (refusedBequests o.path)

/-! ### Interface segregation -/

def fatInterface (t : Thresholds) (path : Path) (c : ClassDef) : List Violation :=
  if c.methodCount > t.fatInterfaceMethods then
    [{ rule := "ISP-001"
       category := .solid
       severity := .medium
       title := s!"Fat interface: {c.name}"
       description := s!"`{c.name}` exposes {c.methodCount} methods (limit {t.fatInterfaceMethods}); " ++
         "clients depend on more than they use."
       path
       line := some c.startLine
       recommendation := "Split the interface into smaller role interfaces."
       details := Text.table [("class", c.name), ("method_count", toString c.methodCount)] }]
  else []

def stubbedOverrides (t : Thresholds) (path : Path) (c : ClassDef) : List Violation :=
  let stubs := (c.methods.filter fun m => m.isStub && !m.isAbstract && !m.isConstructor).map
    FunctionDef.name
  if c.isSubclass && stubs.length ≥ t.stubMethodMin then
    [{ rule := "ISP-002"
       category := .solid
       severity := .low
       title := s!"Stubbed overrides: {c.name}"
       description := s!"`{c.name}` leaves {stubs.length} inherited methods empty: " ++
         ", ".intercalate stubs ++ "."
       path
       line := some c.startLine
       recommendation :=
         "Depend on a narrower interface that only declares what this class supports."
       details := Text.table [("class", c.name), ("stubs", ",".intercalate stubs)] }]
  else []

def interfaceSegregation (t : Thresholds) (o : Outline) : List Violation :=
  o.classes.flatMap fun c => fatInterface t o.path c ++ stubbedOverrides t o.path c

/-! ### Dependency inversion -/

/-- A marker stands as a whole segment of a module path, in either case. -/
def hasMarkedSegment (markers : List (List Char)) (modulePath : String) : Bool :=
  (Text.places modulePath.toList).any fun place =>
    (place.lead.head?.all fun c => ['.', '/', '-', '_', '@'].contains c) &&
      markers.any fun m => (Text.stripFolded? m place.rest).any fun after =>
        after.head?.all fun c => ['.', '/', '-', '_'].contains c

/-- Imports of low-level modules, outside the data layer. -/
def dependencyInversion (s : Settings) (o : Outline) : List Violation :=
  let markers := Marker.usable s.dipMarkers
  if s.layers.classify o.path == some .data then []
  else (o.imports.filter fun i => hasMarkedSegment markers i.modulePath).map fun i =>
    { rule := "DIP-001"
      category := .solid
      severity := .medium
      title := s!"Concrete dependency: {i.modulePath}"
      description := s!"Imports low-level module `{i.modulePath}` directly instead of depending on " ++
        "an abstraction."
      path := o.path
      line := some i.line
      recommendation :=
        "Depend on an interface and inject the concrete client from the composition root."
      details := [("import", i.modulePath)] }

/-! ### The analyzer -/

def inFile (s : Settings) (o : Outline) : List Violation :=
  singleResponsibility s.thresholds o ++ openClosed s.thresholds o ++ substitution o ++
    interfaceSegregation s.thresholds o ++ dependencyInversion s o

/-- Why dependencies cannot be looked at, if they cannot. -/
def refusal? (s : Settings) : Option String :=
  Marker.refusal? s.compiler "DIP"
    (Marker.pattern? "(?i)(^|[./\\-_@])(" ")($|[./\\-_])" s.dipMarkers)

def analyzer : Analyzer where
  name := "solid"
  run p := p.inEachFileUnless (refusal? p.settings) fun f => inFile p.settings f.outline

end ArchReview.Solid

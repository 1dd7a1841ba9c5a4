import ArchReview.Decimal.Shortest
import ArchReview.Graph.Basic
import ArchReview.Layer.Basic

/-!
# Settings

What a project may choose: the thresholds of the rules, where its layers are and what they may
import, the words that betray low-level modules and business rules, and the files to leave out.
`Settings.fault?` finds the first value that makes no sense.

The words are looked for with patterns, which have to be compiled first. What the compiler does with
a pattern that is too large for it is no choice of the project, but all rules that need one depend
on it, so it goes with the settings.
-/

namespace ArchReview

structure Thresholds where
  maxClassLoc : Nat := 500
  maxMethodCount : Nat := 10
  maxFanOut : Nat := 10
  maxFanIn : Nat := 15
  longMethodLines : Nat := 50
  complexMethodBranches : Nat := 10
  lcomThreshold : Float := 0.8
  strategyBranchThreshold : Nat := 5
  fatInterfaceMethods : Nat := 10
  stubMethodMin : Nat := 2
  magicNumberMinOccurrences : Nat := 3
  factoryMinInstantiations : Nat := 3
  factoryMinArguments : Nat := 5
  maxChainDepth : Nat := 5
  maxFileBytes : Nat := 2000000
  deriving Repr, Inhabited

/-- Modules that reach outside a program: storage and network. -/
def standardDipMarkers : List String :=
  ["db", "database", "client", "prisma", "sqlalchemy", "psycopg2", "pymongo", "mysql", "sqlite3",
   "redis", "mongoose", "sequelize", "typeorm", "knex", "pg", "boto3", "requests", "axios"]

/-- Names that sound like business rules. -/
def standardBusinessMarkers : List String :=
  ["validate", "validation", "is_valid", "isValid", "calculate", "apply_discount",
   "applyDiscount", "check_permission", "checkPermission", "business_rule", "ValidationError"]

/-- Directories of other people's code and of build results. -/
def standardExcludes : List String :=
  ["**/node_modules/**", "**/.venv/**", "**/venv/**", "**/__pycache__/**", "**/dist/**",
   "**/build/**"]

/-- A compiler of patterns over text. -/
structure PatternCompiler where
  /-- Why a pattern is refused, if it is. -/
  refusal? : String → Option String := fun _ => none
  deriving Inhabited

instance : Repr PatternCompiler where
  reprPrec _ _ := "PatternCompiler"

structure Settings where
  thresholds : Thresholds := {}
  selfLoops : SelfLoops := .suppress
  layers : LayerMap := LayerMap.standard
  /-- What each layer may import, where it differs from the standard. -/
  layerDependencies : List (Layer × List Layer) := []
  dipMarkers : List String := standardDipMarkers
  businessMarkers : List String := standardBusinessMarkers
  exclude : List String := standardExcludes
  /-- The document that says which patterns are expected, relative to the project. -/
  expectedPatterns : Option Path := none
  compiler : PatternCompiler := {}
  deriving Repr, Inhabited

/-- Where a project keeps its settings. -/
def settingsFile : String := ".archaudit.toml"

namespace Settings

/-- The layers that a layer may import from. -/
def permittedLayers (s : Settings) (layer : Layer) : List Layer :=
  match s.layerDependencies.find? fun e => e.1 == layer with
  | some e => e.2
  | none   => layer.permitted

/-! ### Values that make no sense -/

structure Invalid where
  key : String
  message : String
  deriving DecidableEq, Repr, Inhabited

/-- The whole-number thresholds by name. -/
def counts (t : Thresholds) : List (String × Nat) :=
  [("max_class_loc", t.maxClassLoc),
   ("max_method_count", t.maxMethodCount),
   ("max_fan_out", t.maxFanOut),
   ("max_fan_in", t.maxFanIn),
   ("long_method_lines", t.longMethodLines),
   ("complex_method_branches", t.complexMethodBranches),
   ("strategy_branch_threshold", t.strategyBranchThreshold),
   ("fat_interface_methods", t.fatInterfaceMethods),
   ("stub_method_min", t.stubMethodMin),
   ("magic_number_min_occurrences", t.magicNumberMinOccurrences),
   ("factory_min_instantiations", t.factoryMinInstantiations),
   ("factory_min_arguments", t.factoryMinArguments),
   ("max_chain_depth", t.maxChainDepth),
   ("max_file_bytes", t.maxFileBytes)]

/-- No count may be zero. -/
def countFault? (t : Thresholds) : Option Invalid :=
  ((counts t).find? fun e => e.2 == 0).map fun e =>
    ⟨"thresholds." ++ e.1, "must be greater than 0"⟩

/-- Cohesion is a number above zero and up to one. -/
def lcomFault? (t : Thresholds) : Option Invalid :=
  if t.lcomThreshold > 0.0 && t.lcomThreshold ≤ 1.0 then none
  else some ⟨"thresholds.lcom_threshold", Decimal.plain t.lcomThreshold ++ " is outside (0, 1]"⟩

def patternFault? (key : String) (patterns : List String) : Option Invalid :=
  (patterns.findSome? Glob.fault?).map fun f => ⟨key, f.message⟩

def markerFault? (key : String) (markers : List String) : Option Invalid :=
  if markers.isEmpty then some ⟨key, "at least one marker is required"⟩
  else if markers.any fun m => (Text.trim m.toList).isEmpty then
    some ⟨key, "markers must be non-empty"⟩
  else none

/-- The first value that makes no sense. -/
def fault? (s : Settings) : Option Invalid :=
  (countFault? s.thresholds).or <|
  (lcomFault? s.thresholds).or <|
  (Layer.all.findSome? fun l => patternFault? ("layers." ++ l.text) (s.layers.patterns l)).or <|
  (patternFault? "exclude" s.exclude).or <|
  (markerFault? "dip.markers" s.dipMarkers).or <|
  markerFault? "business_logic.markers" s.businessMarkers

/-! ### A first file -/

/-- One line of the layers in the starter file. -/
def layerLine (l : Layer) : String :=
  l.text ++ " = [" ++ ", ".intercalate (l.patterns.map fun p => "\"" ++ p ++ "\"") ++ "]"

/-- A settings file that spells out the standard. -/
def starter : String :=
  let t : Thresholds := {}
  "\n".intercalate <|
    ["# archaudit configuration. Every key is optional.",
     "",
     "[thresholds]",
     s!"max_class_loc = {t.maxClassLoc}",
     s!"max_method_count = {t.maxMethodCount}",
     s!"max_fan_out = {t.maxFanOut}",
     s!"max_fan_in = {t.maxFanIn}",
     s!"long_method_lines = {t.longMethodLines}",
     s!"complex_method_branches = {t.complexMethodBranches}",
     s!"lcom_threshold = {Decimal.plain t.lcomThreshold}",
     s!"strategy_branch_threshold = {t.strategyBranchThreshold}",
     s!"max_chain_depth = {t.maxChainDepth}",
     "",
     "[graph]",
     "# \"report\" flags a module importing itself; \"suppress\" drops the edge",
     "self_loops = \"suppress\"",
     "",
     "[layers]"] ++ Layer.all.map layerLine ++
    ["",
     "[layer_dependencies]",
     "presentation = [\"presentation\", \"business\"]",
     "business = [\"business\", \"data\"]",
     "data = [\"data\"]",
     "",
     "# [drift]",
     "# expected_patterns = \"docs/expected-patterns.toml\"",
     ""]

end Settings

end ArchReview

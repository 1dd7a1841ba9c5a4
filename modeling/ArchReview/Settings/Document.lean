import ArchReview.Settings.Basic
import ArchReview.Text.Ordered
import ArchReview.Toml.Read

/-!
# Settings documents

Settings are written in TOML. Every key may be left out and unknown keys are passed over; a known
key with a value of the wrong type makes the document unreadable. A record may also be written as
an array of all its fields in order.
-/

namespace ArchReview

namespace Toml

/-! ### Values of one type -/

/-- Whole numbers of 64 bits. -/
def count? : Toml → Option Nat
  | integer n => if 0 ≤ n && n < Int.ofNat (Nat.pow 2 64) then some n.toNat else none
  | _         => none

/-- A number, written with or without a fraction. -/
def number? : Toml → Option Float
  | float x   => some x
  | integer n =>
    if -Int.ofNat (Nat.pow 2 63) ≤ n && n < Int.ofNat (Nat.pow 2 64) then some (Float.ofInt n)
    else none
  | _         => none

def text? : Toml → Option String
  | string s => some s
  | _        => none

def texts? : Toml → Option (List String)
  | array items => items.mapM text?
  | _           => none

/-- Lists of texts by name, in the order of the names. -/
def textTable? : Toml → Option (List (String × List String))
  | table entries => do
    let lists ← entries.mapM fun e => (texts? e.2).map fun l => (e.1, l)
    return Text.table lists
  | _             => none

/-- One of some words; it may also be the only key of a table, with nothing under it. -/
def word? : Toml → Option String
  | string s                 => some s
  | table [(s, table [])]    => some s
  | table [(s, array [])]    => some s
  | _                        => none

/-- The fields of a record that are present. -/
def fields? (names : List String) : Toml → Option (List (Option Toml))
  | table entries => some (names.map fun n => named? n entries)
  | array items   =>
    if items.length < names.length then none else some ((items.take names.length).map some)
  | _             => none

/-- A field that may be absent, but not wrong. -/
def optional? {α : Type} (read? : Toml → Option α) : Option Toml → Option (Option α)
  | none   => some none
  | some v => (read? v).map some

/-- A record of a single field. -/
def single? {α : Type} (name : String) (read? : Toml → Option α) (v : Toml) : Option (Option α) :=
  (fields? [name] v).bind fun fs =>
    match fs with
    | [f] => optional? read? f
    | _   => none

end Toml

open Toml

/-! ### The records of a settings document -/

/-- The names of the thresholds in their order. -/
def thresholdNames : List String :=
  ["max_class_loc", "max_method_count", "max_fan_out", "max_fan_in", "long_method_lines",
   "complex_method_branches", "lcom_threshold", "strategy_branch_threshold",
   "fat_interface_methods", "stub_method_min", "magic_number_min_occurrences",
   "factory_min_instantiations", "factory_min_arguments", "max_chain_depth", "max_file_bytes"]

/-- Sets one threshold. -/
def Thresholds.set? (t : Thresholds) (name : String) (v : Toml) : Option Thresholds :=
  match name with
  | "lcom_threshold" => v.number?.map fun x => { t with lcomThreshold := x }
  | name             => v.count?.map fun n =>
    match name with
    | "max_class_loc"                => { t with maxClassLoc := n }
    | "max_method_count"             => { t with maxMethodCount := n }
    | "max_fan_out"                  => { t with maxFanOut := n }
    | "max_fan_in"                   => { t with maxFanIn := n }
    | "long_method_lines"            => { t with longMethodLines := n }
    | "complex_method_branches"      => { t with complexMethodBranches := n }
    | "strategy_branch_threshold"    => { t with strategyBranchThreshold := n }
    | "fat_interface_methods"        => { t with fatInterfaceMethods := n }
    | "stub_method_min"              => { t with stubMethodMin := n }
    | "magic_number_min_occurrences" => { t with magicNumberMinOccurrences := n }
    | "factory_min_instantiations"   => { t with factoryMinInstantiations := n }
    | "factory_min_arguments"        => { t with factoryMinArguments := n }
    | "max_chain_depth"              => { t with maxChainDepth := n }
    | "max_file_bytes"               => { t with maxFileBytes := n }
    | _                              => t

def Thresholds.ofToml? (v : Toml) : Option Thresholds := do
  let given ← fields? thresholdNames v
  (thresholdNames.zip given).foldlM (fun t e =>
    match e.2 with
    | none   => some t
    | some v => t.set? e.1 v) {}

/-- A policy in a document is written in lower case only. -/
def policy? (v : Toml) : Option SelfLoops :=
  v.word?.bind fun word =>
    match word with
    | "report"   => some .report
    | "suppress" => some .suppress
    | _          => none

/-- A settings document with everything of the right type. -/
structure SettingsDocument where
  thresholds : Option Thresholds
  selfLoops : Option SelfLoops
  layers : Option (List (String × List String))
  layerDependencies : Option (List (String × List String))
  dipMarkers : Option (List String)
  businessMarkers : Option (List String)
  expectedPatterns : Option String
  exclude : Option (List String)

def SettingsDocument.parse? (text : String) : Option SettingsDocument := do
  let entries ← Toml.parse? text
  let field {α : Type} (name : String) (read? : Toml → Option α) : Option (Option α) :=
    optional? read? (named? name entries)
  return {
    thresholds := ← field "thresholds" Thresholds.ofToml?
    selfLoops := (← field "graph" (single? "self_loops" policy?)).join
    layers := ← field "layers" textTable?
    layerDependencies := ← field "layer_dependencies" textTable?
    dipMarkers := (← field "dip" (single? "markers" texts?)).join
    businessMarkers := (← field "business_logic" (single? "markers" texts?)).join
    expectedPatterns := (← field "drift" (single? "expected_patterns" text?)).join
    exclude := ← field "exclude" texts? }

/-! ### Settings -/

/-- Why there are no settings. -/
inductive SettingsFault where
  | unreadable (cause : String)
  | malformed
  | invalid (value : Settings.Invalid)
  | unknownLayer (name : String)
  deriving DecidableEq, Repr, Inhabited

def SettingsFault.message : SettingsFault → String
  | unreadable cause  => s!"Failed to read config file: {cause}"
  | malformed         => "Failed to parse config file"
  | invalid value     => s!"Invalid value for `{value.key}`: {value.message}"
  | unknownLayer name => s!"Unknown layer `{name}` (expected presentation, business or data)"

namespace Settings

/-- The layer with a name. -/
def layerNamed (name : String) : Except SettingsFault Layer :=
  match Layer.ofName? name with
  | some l => .ok l
  | none   => .error (.unknownLayer name)

/-- The patterns of all layers. Of two names for one layer the later counts, and a layer without a
name in the document keeps its standard patterns. -/
def layerMap (given : List (String × List String)) : Except SettingsFault LayerMap := do
  let entries ← given.mapM fun e => return (← layerNamed e.1, e.2)
  return ⟨Layer.all.map fun l =>
    (l, ((entries.reverse.find? fun e => e.1 == l).map fun e => e.2).getD l.patterns)⟩

/-- What each named layer may import; of two names for one layer the later is found first. -/
def dependencyMap (given : List (String × List String)) :
    Except SettingsFault (List (Layer × List Layer)) := do
  let entries ← given.mapM fun e => return (← layerNamed e.1, ← e.2.mapM layerNamed)
  return entries.reverse

def ofDocument (d : SettingsDocument) : Except SettingsFault Settings := do
  let standard : Settings := {}
  let layers ← match d.layers with
    | some given => layerMap given
    | none       => pure standard.layers
  let layerDependencies ← dependencyMap (d.layerDependencies.getD [])
  let settings : Settings :=
    { thresholds := d.thresholds.getD standard.thresholds
      selfLoops := d.selfLoops.getD standard.selfLoops
      layers
      layerDependencies
      dipMarkers := d.dipMarkers.getD standard.dipMarkers
      businessMarkers := d.businessMarkers.getD standard.businessMarkers
      exclude := d.exclude.getD standard.exclude
      expectedPatterns := d.expectedPatterns.map Path.mk }
  match settings.fault? with
  | some fault => .error (.invalid fault)
  | none       => .ok settings

/-- The settings that a text says. -/
def parse (text : String) : Except SettingsFault Settings :=
  match SettingsDocument.parse? text with
  | none   => .error .malformed
  | some d => ofDocument d

end Settings

end ArchReview

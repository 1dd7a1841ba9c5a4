import ArchReview.Json.Record
import ArchReview.Outline.Basic

/-!
# Outlines as data

Every record of an outline has a form in JSON, with a reader beside its writer.
-/

namespace ArchReview

open Json

/-! ### Words -/

def Language.ofText? : String → Option Language
  | "python"     => some .python
  | "javascript" => some .javaScript
  | "typescript" => some .typeScript
  | _            => none

def ImportKind.ofText? : String → Option ImportKind
  | "static"    => some .static
  | "require"   => some .require
  | "dynamic"   => some .dynamic
  | "re_export" => some .reExport
  | _           => none

/-! ### Imports -/

namespace Import

def fieldNames : List String :=
  ["module_path", "imported_names", "bindings", "is_relative", "resolved_base", "kind",
   "source_file", "line"]

def json (i : Import) : Json :=
  object [
    ("module_path", string i.modulePath),
    ("imported_names", strings i.importedNames),
    ("bindings", strings i.bindings),
    ("is_relative", bool i.isRelative),
    ("resolved_base", optional (fun p => string p.text) i.resolvedBase),
    ("kind", string i.kind.text),
    ("source_file", string i.sourceFile.text),
    ("line", natural i.line)]

def ofJson? (v : Json) : Option Import := do
  let fs ← fields? fieldNames v
  return {
    modulePath := ← fs.required? "module_path" string?
    importedNames := ← fs.required? "imported_names" (list? string?)
    bindings := ← fs.required? "bindings" (list? string?)
    isRelative := ← fs.required? "is_relative" bool?
    resolvedBase := (← fs.optional? "resolved_base" string?).map Path.mk
    kind := ← fs.required? "kind" (word? ImportKind.ofText?)
    sourceFile := ⟨← fs.required? "source_file" string?⟩
    line := ← fs.required? "line" natural? }

end Import

/-! ### Functions and classes -/

namespace FunctionDef

def fieldNames : List String :=
  ["name", "start_line", "end_line", "parameter_count", "parameter_types", "is_exported",
   "is_static", "is_abstract", "decorators", "complexity", "is_stub", "raises_not_implemented",
   "instance_fields"]

def json (f : FunctionDef) : Json :=
  object [
    ("name", string f.name),
    ("start_line", natural f.startLine),
    ("end_line", natural f.endLine),
    ("parameter_count", natural f.parameterCount),
    ("parameter_types", array (f.parameterTypes.map (optional string))),
    ("is_exported", bool f.isExported),
    ("is_static", bool f.isStatic),
    ("is_abstract", bool f.isAbstract),
    ("decorators", strings f.decorators),
    ("complexity", natural f.complexity),
    ("is_stub", bool f.isStub),
    ("raises_not_implemented", bool f.raisesNotImplemented),
    ("instance_fields", strings f.instanceFields)]

def ofJson? (v : Json) : Option FunctionDef := do
  let fs ← fields? fieldNames v
  return {
    name := ← fs.required? "name" string?
    startLine := ← fs.required? "start_line" natural?
    endLine := ← fs.required? "end_line" natural?
    parameterCount := ← fs.required? "parameter_count" natural?
    parameterTypes := ← fs.required? "parameter_types" (list? (option? string?))
    isExported := ← fs.required? "is_exported" bool?
    isStatic := ← fs.required? "is_static" bool?
    isAbstract := ← fs.required? "is_abstract" bool?
    decorators := ← fs.required? "decorators" (list? string?)
    complexity := ← fs.required? "complexity" natural?
    isStub := ← fs.required? "is_stub" bool?
    raisesNotImplemented := ← fs.required? "raises_not_implemented" bool?
    instanceFields := Text.nameSet (← fs.required? "instance_fields" (list? string?)) }

end FunctionDef

namespace ClassDef

def fieldNames : List String :=
  ["name", "start_line", "end_line", "bases", "is_exported", "is_interface", "method_count",
   "instance_variable_refs_per_method", "methods"]

def json (c : ClassDef) : Json :=
  object [
    ("name", string c.name),
    ("start_line", natural c.startLine),
    ("end_line", natural c.endLine),
    ("bases", strings c.bases),
    ("is_exported", bool c.isExported),
    ("is_interface", bool c.isInterface),
    ("method_count", natural c.methodCount),
    ("instance_variable_refs_per_method",
      object (c.fieldsByMethod.map fun e => (e.1, strings e.2))),
    ("methods", array (c.methods.map FunctionDef.json))]

/-- Sets of fields by method name; of two entries with one name the later counts. -/
def fieldTable? : Json → Option (List (String × List String))
  | object members => do
    let entries ← members.mapM fun m => (list? string? m.2).map fun l => (m.1, Text.nameSet l)
    return Text.table entries
  | _              => none

def ofJson? (v : Json) : Option ClassDef := do
  let fs ← fields? fieldNames v
  return {
    name := ← fs.required? "name" string?
    startLine := ← fs.required? "start_line" natural?
    endLine := ← fs.required? "end_line" natural?
    bases := ← fs.required? "bases" (list? string?)
    isExported := ← fs.required? "is_exported" bool?
    isInterface := ← fs.required? "is_interface" bool?
    methodCount := ← fs.required? "method_count" natural?
    fieldsByMethod := ← fs.required? "instance_variable_refs_per_method" fieldTable?
    methods := ← fs.required? "methods" (list? FunctionDef.ofJson?) }

end ClassDef

/-! ### Constructs inside bodies -/

namespace Chain

def fieldNames : List String :=
  ["line", "branch_count", "discriminant", "uses_type_check", "compares_literals"]

def json (c : Chain) : Json :=
  object [
    ("line", natural c.line),
    ("branch_count", natural c.branchCount),
    ("discriminant", optional string c.discriminant),
    ("uses_type_check", bool c.usesTypeCheck),
    ("compares_literals", bool c.comparesLiterals)]

def ofJson? (v : Json) : Option Chain := do
  let fs ← fields? fieldNames v
  return {
    line := ← fs.required? "line" natural?
    branchCount := ← fs.required? "branch_count" natural?
    discriminant := ← fs.optional? "discriminant" string?
    usesTypeCheck := ← fs.required? "uses_type_check" bool?
    comparesLiterals := ← fs.required? "compares_literals" bool? }

end Chain

namespace Instantiation

def fieldNames : List String := ["class_name", "line", "argument_count"]

def json (i : Instantiation) : Json :=
  object [
    ("class_name", string i.className),
    ("line", natural i.line),
    ("argument_count", natural i.argumentCount)]

def ofJson? (v : Json) : Option Instantiation := do
  let fs ← fields? fieldNames v
  return {
    className := ← fs.required? "class_name" string?
    line := ← fs.required? "line" natural?
    argumentCount := ← fs.required? "argument_count" natural? }

end Instantiation

namespace NumberLiteral

def fieldNames : List String := ["value", "line", "in_constant"]

def json (n : NumberLiteral) : Json :=
  object [
    ("value", string n.value),
    ("line", natural n.line),
    ("in_constant", bool n.inConstant)]

def ofJson? (v : Json) : Option NumberLiteral := do
  let fs ← fields? fieldNames v
  return {
    value := ← fs.required? "value" string?
    line := ← fs.required? "line" natural?
    inConstant := ← fs.required? "in_constant" bool? }

end NumberLiteral

namespace GlobalWrite

def fieldNames : List String := ["name", "function", "line"]

def json (g : GlobalWrite) : Json :=
  object [
    ("name", string g.name),
    ("function", string g.function),
    ("line", natural g.line)]

def ofJson? (v : Json) : Option GlobalWrite := do
  let fs ← fields? fieldNames v
  return {
    name := ← fs.required? "name" string?
    function := ← fs.required? "function" string?
    line := ← fs.required? "line" natural? }

end GlobalWrite

/-! ### Outlines -/

namespace Outline

def fieldNames : List String :=
  ["file_path", "language", "line_count", "imports", "classes", "functions",
   "raw_string_literals", "conditional_chains", "instantiations", "numeric_literals",
   "identifiers", "global_writes", "parse_succeeded", "error", "error_line"]

def json (o : Outline) : Json :=
  object [
    ("file_path", string o.path.text),
    ("language", string o.language.text),
    ("line_count", natural o.lineCount),
    ("imports", array (o.imports.map Import.json)),
    ("classes", array (o.classes.map ClassDef.json)),
    ("functions", array (o.functions.map FunctionDef.json)),
    ("raw_string_literals", Json.strings o.strings),
    ("conditional_chains", array (o.chains.map Chain.json)),
    ("instantiations", array (o.instantiations.map Instantiation.json)),
    ("numeric_literals", array (o.numbers.map NumberLiteral.json)),
    ("identifiers", Json.strings o.identifiers),
    ("global_writes", array (o.globalWrites.map GlobalWrite.json)),
    ("parse_succeeded", bool o.succeeded),
    ("error", optional string o.error),
    ("error_line", optional natural o.errorLine)]

def ofJson? (v : Json) : Option Outline := do
  let fs ← fields? fieldNames v
  return {
    path := ⟨← fs.required? "file_path" string?⟩
    language := ← fs.required? "language" (word? Language.ofText?)
    lineCount := ← fs.required? "line_count" natural?
    imports := ← fs.required? "imports" (list? Import.ofJson?)
    classes := ← fs.required? "classes" (list? ClassDef.ofJson?)
    functions := ← fs.required? "functions" (list? FunctionDef.ofJson?)
    strings := ← fs.required? "raw_string_literals" (list? string?)
    chains := ← fs.required? "conditional_chains" (list? Chain.ofJson?)
    instantiations := ← fs.required? "instantiations" (list? Instantiation.ofJson?)
    numbers := ← fs.required? "numeric_literals" (list? NumberLiteral.ofJson?)
    identifiers := Text.nameSet (← fs.required? "identifiers" (list? string?))
    globalWrites := ← fs.required? "global_writes" (list? GlobalWrite.ofJson?)
    succeeded := ← fs.required? "parse_succeeded" bool?
    error := ← fs.optional? "error" string?
    errorLine := ← fs.optional? "error_line" natural? }

end Outline

end ArchReview

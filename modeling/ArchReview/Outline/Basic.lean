import ArchReview.Path.Basic
import ArchReview.Text.Case
import ArchReview.Text.Ordered
import ArchReview.Text.Unknown

/-!
# Outlines

The outline of a source file is what the rules look at: its imports, classes and functions, and
the constructs inside them that matter (chains of conditions, instantiations, literals, names,
writes to globals). An `Outline` is also kept for a file that could not be read; it is then empty
but for the reason.
-/

namespace ArchReview

/-! ### Languages -/

inductive Language where
  | python
  | javaScript
  | typeScript
  deriving DecidableEq, Repr, Inhabited

namespace Language

def text : Language → String
  | python     => "python"
  | javaScript => "javascript"
  | typeScript => "typescript"

/-- The language that a file extension stands for. -/
def ofExtension? (ext : String) : Option Language :=
  if ["py", "pyi"].contains ext then some python
  else if ["js", "jsx", "mjs", "cjs"].contains ext then some javaScript
  else if ["ts", "tsx", "mts", "cts"].contains ext then some typeScript
  else none

def ofPath? (path : Path) : Option Language := path.extension?.bind ofExtension?

/-- A language by name or short name, in any case. -/
def ofName? (name : String) : Option Language :=
  match Text.lower name with
  | "python" | "py"     => some python
  | "javascript" | "js" => some javaScript
  | "typescript" | "ts" => some typeScript
  | _                   => none

def read (name : String) : Except UnknownName Language :=
  UnknownName.resolve .language ofName? name

end Language

/-! ### Declarations -/

inductive ImportKind where
  | static
  | require
  | dynamic
  | reExport
  deriving DecidableEq, Repr, Inhabited

def ImportKind.text : ImportKind → String
  | static   => "static"
  | require  => "require"
  | dynamic  => "dynamic"
  | reExport => "re_export"

structure Import where
  /-- The module as written. -/
  modulePath : String
  importedNames : List String
  /-- The names that the import brings into scope. -/
  bindings : List String
  isRelative : Bool
  /-- For a relative import: the place it points to, without extension. -/
  resolvedBase : Option Path
  kind : ImportKind
  sourceFile : Path
  line : Nat
  deriving DecidableEq, Repr, Inhabited

structure FunctionDef where
  name : String
  startLine : Nat
  endLine : Nat
  parameterCount : Nat := 0
  /-- The annotation of each parameter, if it has one. -/
  parameterTypes : List (Option String) := []
  isExported : Bool := false
  isStatic : Bool := false
  isAbstract : Bool := false
  decorators : List String := []
  /-- One more than the number of branching constructs in the body. -/
  complexity : Nat := 1
  /-- The body does nothing. -/
  isStub : Bool := false
  /-- The body only says that it is not implemented. -/
  raisesNotImplemented : Bool := false
  /-- The fields of the instance that the body mentions, in order. -/
  instanceFields : List String := []
  deriving DecidableEq, Repr, Inhabited

namespace FunctionDef

def length (f : FunctionDef) : Nat := f.endLine - f.startLine

def isConstructor (f : FunctionDef) : Bool := f.name == "__init__" || f.name == "constructor"

end FunctionDef

structure ClassDef where
  name : String
  startLine : Nat
  endLine : Nat
  bases : List String := []
  isExported : Bool := false
  /-- Interfaces, abstract classes and protocols. -/
  isInterface : Bool := false
  methodCount : Nat := 0
  /-- For each method name the fields that the last method of that name mentions. -/
  fieldsByMethod : List (String × List String) := []
  methods : List FunctionDef := []
  deriving DecidableEq, Repr, Inhabited

/-- Bases that add nothing to a class. -/
def isRootBase (base : String) : Bool :=
  ["object", "ABC", "abc.ABC", "Protocol", "typing.Protocol", "Generic", "Exception"].contains base
    || Text.startsWith base "metaclass=" || Text.startsWith base "Generic["
    || Text.startsWith base "Protocol["

namespace ClassDef

/-- Adds a method, with its count and its fields. -/
def addMethod (c : ClassDef) (m : FunctionDef) : ClassDef :=
  { c with
    methodCount := c.methodCount + 1
    fieldsByMethod := Text.insertEntry m.name m.instanceFields c.fieldsByMethod
    methods := c.methods ++ [m] }

def addMethods (c : ClassDef) (ms : List FunctionDef) : ClassDef := ms.foldl addMethod c

def length (c : ClassDef) : Nat := c.endLine - c.startLine

def isSubclass (c : ClassDef) : Bool := c.bases.any fun b => !isRootBase b

def constructor? (c : ClassDef) : Option FunctionDef := c.methods.find? FunctionDef.isConstructor

end ClassDef

/-! ### Constructs inside bodies -/

/-- A chain of alternatives: `if` with `else if`, or a `switch`. -/
structure Chain where
  line : Nat
  branchCount : Nat
  /-- What every branch tests, when it is the same for all. -/
  discriminant : Option String
  usesTypeCheck : Bool
  /-- Every branch compares with a string. -/
  comparesLiterals : Bool
  deriving DecidableEq, Repr, Inhabited

structure Instantiation where
  className : String
  line : Nat
  argumentCount : Nat
  deriving DecidableEq, Repr, Inhabited

structure NumberLiteral where
  value : String
  line : Nat
  /-- It is (part of) the value of a named constant. -/
  inConstant : Bool
  deriving DecidableEq, Repr, Inhabited

structure GlobalWrite where
  name : String
  function : String
  line : Nat
  deriving DecidableEq, Repr, Inhabited

/-! ### Files -/

structure Outline where
  path : Path
  language : Language
  lineCount : Nat := 0
  imports : List Import := []
  classes : List ClassDef := []
  functions : List FunctionDef := []
  strings : List String := []
  chains : List Chain := []
  instantiations : List Instantiation := []
  numbers : List NumberLiteral := []
  /-- The names that are used, in order. -/
  identifiers : List String := []
  globalWrites : List GlobalWrite := []
  succeeded : Bool := true
  error : Option String := none
  errorLine : Option Nat := none
  deriving DecidableEq, Repr, Inhabited

namespace Outline

/-- The outline of a file that could not be read. -/
def failed (path : Path) (language : Language) (error : String) (line : Option Nat) : Outline :=
  { path, language, succeeded := false, error := some error, errorLine := line }

/-- Functions outside classes, then the methods of every class. -/
def allFunctions (o : Outline) : List FunctionDef :=
  o.functions ++ o.classes.flatMap fun c => c.methods

end Outline

/-- An outline with the text it was taken from. -/
structure SourceOutline where
  outline : Outline
  text : String
  deriving DecidableEq, Repr, Inhabited

/-! ### Names and literals -/

/-- `MAX_RETRIES`, `HTTP2_PORT`: names that read as constants. -/
def isConstantName (name : String) : Bool :=
  name.toList.any Char.isAlpha &&
    name.toList.all fun c => c.isUpper || c.isDigit || c == '_'

/-- A string literal without the letters in front of it and its quotes. -/
def unquote (literal : String) : String :=
  let body := literal.toList.dropWhile Char.isAlpha
  let inner := [['"', '"', '"'], ['\'', '\'', '\''], ['"'], ['\''], ['`']].findSome? fun q =>
    (Text.stripStart? q body).bind (Text.stripEnd? q)
  String.ofList (inner.getD body)

end ArchReview

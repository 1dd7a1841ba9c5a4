import ArchReview.Grammar.Script
import ArchReview.Outline.Facts

/-!
# Outlines of scripts

`Script.facts` collects the facts of a syntax tree. A function is recorded on its own if it is
declared, or is the value of a declared variable, outside all functions. A class is recorded when
it ends, so an inner class comes before the one around it; interfaces are classes too.
-/

namespace ArchReview.Script

def roleText (role : Role) (t : Tree) : String := ((t.child? role).map Tree.text).getD ""

def hasSymbol (text : String) (t : Tree) : Bool :=
  t.children.any fun c => c.kind == .symbol && c.text == text

/-- What `child?` finds, with its text. -/
def nameOf (t : Tree) : String := ((t.child? .name).map Tree.text).getD "<anonymous>"

/-! ### Bodies -/

/-- Branching constructs, each counted once. -/
def ownBranches (t : Tree) : Nat :=
  match t.kind with
  | .ifStatement | .forStatement | .forIn | .whileStatement | .doStatement | .switchCase => 1
  | .binary => if ["&&", "||"].contains (roleText .operator t) then 1 else 0
  | _       => 0

mutual

/-- Branching constructs in a part of a body; declarations inside it are not looked into. -/
def branches : Tree → Nat
  | .leaf ..                   => 0
  | .node kind role first rest =>
    if [.functionDeclaration, .classDeclaration, .classExpression].contains kind then 0
    else ownBranches (.node kind role first rest) + branches first + branchesAll rest

def branchesAll : List Tree → Nat
  | []      => 0
  | t :: ts => branches t + branchesAll ts

end

/-- The field that a tree names, if it is a member of `this`. -/
def thisField? (t : Tree) : Option String :=
  match t.child? .object, t.child? .property with
  | some object, some property =>
    if t.kind == .member && object.kind == .this then
      some (Text.dropLeading (· == '#') property.text)
    else none
  | _, _                       => none

/-- A class or function declared inside has a `this` of its own. -/
def hasOwnThis (t : Tree) : Bool :=
  [.classExpression, .classDeclaration, .functionDeclaration].contains t.kind

mutual

/-- The fields of `this` that a tree mentions. -/
def thisFields : Tree → List String
  | .leaf ..                   => []
  | .node kind role first rest =>
    (thisField? (.node kind role first rest)).toList ++
      (if hasOwnThis first then [] else thisFields first) ++ thisFieldsAll rest

def thisFieldsAll : List Tree → List String
  | []      => []
  | t :: ts => (if hasOwnThis t then [] else thisFields t) ++ thisFieldsAll ts

end

def bodyStatements (body : Tree) : List Tree :=
  (namedChildren body).filter fun t => t.kind != .comment

/-- The body starts by throwing that it is not implemented. -/
def raisesNotImplemented (body : Tree) : Bool :=
  match bodyStatements body with
  | first :: _ =>
    first.kind == .throwStatement &&
      let thrown := Text.lower first.text
      ["not implemented", "notimplemented", "not yet implemented"].any (Text.contains thrown)
  | []         => false

/-! ### Imports -/

/-- Where a relative import points, seen from a directory. -/
def relativeBase (directory : Path) (module : String) : Path := (directory.join ⟨module⟩).normalize

def isRelative (module : String) : Bool :=
  module == "." || module == ".." || Text.startsWith module "./" || Text.startsWith module "../"

/-- An import of a module; none of an empty name. -/
def clause (module : String) (names bindings : List String) (kind : ImportKind) (line : Nat) :
    Facts :=
  if module.isEmpty then {}
  else { imports := [⟨module, names, bindings, isRelative module, kind, line⟩] }

def sourceOf (t : Tree) : String := ((t.child? .source).map fun s => unquote s.text).getD ""

def identifiersIn (t : Tree) : List String :=
  ((namedChildren t).filter fun c => c.kind == .identifier).map Tree.text

/-- The names that one part of an import clause takes, each with the name it is known under. -/
def importedNames (part : Tree) : List (String × Option String) :=
  match part.kind with
  | .identifier      => [("default", some part.text)]
  | .namespaceImport => [("*", (identifiersIn part).head?)]
  | .namedImports    =>
    ((namedChildren part).filter fun s => s.kind == .importSpecifier).map fun s =>
      let name := roleText .name s
      (name, some (((s.child? .newName).map Tree.text).getD name))
  | _                => []

def importFacts (t : Tree) : Facts :=
  match t.children.find? fun c => c.kind == .importRequire with
  | some c => clause (sourceOf c) [] ((identifiersIn c).take 1) .require t.firstLine
  | none   =>
    let clauses := t.children.filter fun c => c.kind == .importClause
    let names := clauses.flatMap fun c => (namedChildren c).flatMap importedNames
    clause (sourceOf t) (names.map fun n => n.1) (names.filterMap fun n => n.2) .static t.firstLine

/-- The names that an export passes on. -/
def exportedNames (part : Tree) : List String :=
  match part.kind with
  | .namespaceExport => ["*"]
  | .symbol          => if part.text == "*" then ["*"] else []
  | .exportClause    =>
    (namedChildren part).filterMap fun s => (s.child? .name).map Tree.text
  | _                => []

def reExportFacts (t : Tree) : Facts :=
  clause (sourceOf t) (t.children.flatMap exportedNames) [] .reExport t.firstLine

/-- The names bound by the target of a declaration, and the ones they are taken from. -/
def boundNames (target : Tree) : List String × List String :=
  match target.kind with
  | .identifier    => ([], [target.text])
  | .objectPattern =>
    let parts := namedChildren target
    let names := parts.flatMap fun p => match p.kind with
      | .shorthandPattern => [p.text]
      | .pairPattern      => ((p.child? .key).map Tree.text).toList
      | _                 => []
    let bindings := parts.flatMap fun p => match p.kind with
      | .shorthandPattern => [p.text]
      | .pairPattern      => ((p.child? .value).map Tree.text).toList
      | _                 => []
    (names, bindings)
  | _              => ([], [])

/-- How a call imports, if it does. -/
def importingCall? (t : Tree) : Option ImportKind :=
  (t.child? .function).bind fun f =>
    if f.kind == .identifier && f.text == "require" then some .require
    else if f.kind == .symbol && f.text == "import" then some .dynamic
    else none

/-- A call of `require` or `import`; `target` is what its value is bound to. -/
def callFacts (target : Option Tree) (t : Tree) : Facts :=
  match importingCall? t with
  | none      => {}
  | some kind =>
    let argument := (t.child? .arguments).bind fun args => (namedChildren args).head?
    match argument.filter fun a => a.kind == .string with
    | none          => {}
    | some argument =>
      let (names, bindings) :=
        if kind == .require then (target.map boundNames).getD ([], []) else ([], [])
      clause (unquote argument.text) names bindings kind t.firstLine

/-! ### Functions -/

def isParameter (t : Tree) : Bool :=
  [.requiredParameter, .optionalParameter, .identifier, .restPattern, .assignmentPattern,
   .objectPattern, .arrayPattern].contains t.kind

/-- The text of an annotation without its colon. -/
def annotationText (t : Tree) : String :=
  Text.compact (Text.dropLeading (· == ':') t.text)

/-- The annotations of the parameters. A parameter `this` is none. -/
def parameterTypes (parameters : Tree) : List (Option String) :=
  let counted := (namedChildren parameters).filter fun p =>
    isParameter p && (p.child? .pattern).all fun pat => pat.text != "this"
  counted.map fun p => (p.child? .type).map annotationText

/-- The fields that the parameters of a constructor declare. -/
def parameterProperties (parameters : Tree) : List String :=
  let declaring := (namedChildren parameters).filter fun p =>
    p.children.any fun c =>
      c.kind == .accessibility || (c.kind == .symbol && c.text == "readonly")
  declaring.filterMap fun p => (p.child? .pattern).map Tree.text

/-- The record of a function with a given name. -/
def functionRecord (name : String) (t : Tree) : FunctionDef :=
  let types := match t.child? .parameters with
    | some ps => parameterTypes ps
    | none    => if (t.child? .parameter).isSome then [none] else []
  let body := t.child? .body
  let block := body.filter fun b => b.kind == .block
  { name
    startLine            := t.firstLine
    endLine              := t.lastLine
    parameterCount       := types.length
    parameterTypes       := types
    complexity           := 1 + ((body.map fun b => branchesAll b.children).getD 0)
    isStub               := (block.map fun b => (bodyStatements b).isEmpty).getD false
    raisesNotImplemented := (block.map raisesNotImplemented).getD false
    instanceFields       := Text.nameSet ((body.map thisFields).getD []) }

/-- The record of a function without a body. -/
def signatureRecord (name : String) (isExported : Bool) (t : Tree) : FunctionDef :=
  let types := ((t.child? .parameters).map parameterTypes).getD []
  { name, startLine := t.firstLine, endLine := t.lastLine, parameterCount := types.length
    parameterTypes := types, isAbstract := true, isExported }

/-- Members that are not seen from outside. -/
def isPrivate (t : Tree) : Bool :=
  (t.children.any fun c => c.kind == .accessibility && c.text != "public") ||
    (t.child? .name).any fun n => n.kind == .privateName

/-- The record of a method with a body. -/
def methodRecord (t : Tree) : FunctionDef :=
  let f := functionRecord (Text.dropLeading (· == '#') (nameOf t)) t
  let properties :=
    if f.isConstructor then ((t.child? .parameters).map parameterProperties).getD [] else []
  { f with
    isStatic       := hasSymbol "static" t
    isAbstract     := hasSymbol "abstract" t
    isExported     := !isPrivate t
    instanceFields := Text.nameSet (f.instanceFields ++ properties) }

/-- The value of a field or a variable, if it is a function. -/
def functionValue? (t : Tree) : Option Tree :=
  (t.child? .value).filter fun v => v.kind == .arrowFunction || v.kind == .functionExpression

/-- The methods that a member of a class body declares. -/
def memberMethods (t : Tree) : List FunctionDef :=
  match t.kind with
  | .method                           => [methodRecord t]
  | .abstractMethod | .methodSignature => [signatureRecord (nameOf t) (!isPrivate t) t]
  | .field                            =>
    (functionValue? t).toList.map fun v =>
      { functionRecord (nameOf t) v with
        isStatic := hasSymbol "static" t, isExported := !isPrivate t }
  | _                                 => []

/-! ### Classes -/

/-- The bases that one part of a class head names. -/
def heritageBases (clause : Tree) : List String :=
  match clause.kind with
  | .extendsClause    => (clause.childrenIn .value).map fun v => Text.compact v.text
  | .implementsClause => (namedChildren clause).map fun t => Text.compact t.text
  | _                 => [Text.compact clause.text]

def classRecord (isExported : Bool) (t : Tree) (methods : List FunctionDef) : ClassDef :=
  let heritage := t.children.filter fun c => c.kind == .heritage
  let empty : ClassDef :=
    { name        := nameOf t
      startLine   := t.firstLine
      endLine     := t.lastLine
      bases       := heritage.flatMap fun h => (namedChildren h).flatMap heritageBases
      isExported
      isInterface := t.kind == .abstractClass || methods.any fun m => m.isAbstract }
  empty.addMethods methods

/-- Methods of an interface, and its properties that hold functions. -/
def interfaceMethods (body : Tree) : List FunctionDef :=
  let callable := (namedChildren body).filter fun m =>
    m.kind == .methodSignature ||
      (m.kind == .propertySignature && (m.child? .type).any fun t => Text.contains t.text "=>")
  callable.map fun m => signatureRecord (nameOf m) true m

def interfaceRecord (isExported : Bool) (t : Tree) : ClassDef :=
  let bases := t.children.filter fun c => c.kind == .extendsTypes
  let empty : ClassDef :=
    { name        := nameOf t
      startLine   := t.firstLine
      endLine     := t.lastLine
      bases       := bases.flatMap fun b => (namedChildren b).map fun t => Text.compact t.text
      isExported
      isInterface := true }
  empty.addMethods (((t.child? .body).map interfaceMethods).getD [])

/-! ### Chains -/

mutual

/-- Takes the parentheses off a whole expression. -/
def bare : Tree → Tree
  | .leaf k r g s l            => .leaf k r g s l
  | .node kind role first rest =>
    if kind == .parenthesized then
      if first.kind.isNamed then bare first
      else (bareFirst rest).getD (.node kind role first rest)
    else .node kind role first rest

/-- The first named tree, without parentheses. -/
def bareFirst : List Tree → Option Tree
  | []      => none
  | t :: ts => if t.kind.isNamed then some (bare t) else bareFirst ts

end

def branchTest (condition : Tree) : BranchTest :=
  let test := bare condition
  match test.child? .left, test.child? .right with
  | some left, some right =>
    let subject := Text.compact left.text
    let operator := roleText .operator test
    if test.kind != .binary then {}
    else if operator == "===" || operator == "==" then
      { discriminant    := some subject
        usesTypeCheck   := Text.startsWith subject "typeof "
        comparesLiteral := right.kind == .string }
    else if operator == "instanceof" then
      { discriminant := some subject, usesTypeCheck := true }
    else {}
  | _, _                  => {}

mutual

/-- The tests of an `if` and of those that hang on it by `else`. -/
def chainTests : Tree → List BranchTest
  | .leaf ..             => []
  | .node _ _ first rest =>
    if first.role == .condition then branchTest first :: chainTestsOf rest
    else if first.role == .alternative then elseTests first
    else chainTestsOf rest

def chainTestsOf : List Tree → List BranchTest
  | []      => []
  | t :: ts =>
    if t.role == .condition then branchTest t :: chainTestsOf ts
    else if t.role == .alternative then elseTests t
    else chainTestsOf ts

/-- The tests of the `if` inside an `else`. -/
def elseTests : Tree → List BranchTest
  | .leaf ..             => []
  | .node _ _ first rest =>
    if first.kind == .ifStatement then chainTests first else firstIf rest

def firstIf : List Tree → List BranchTest
  | []      => []
  | t :: ts => if t.kind == .ifStatement then chainTests t else firstIf ts

end

def ifFacts (t : Tree) : Facts :=
  let tests := chainTests t
  if tests.length < 2 then {} else { chains := [Chain.ofTests t.firstLine tests] }

def switchFacts (t : Tree) : Facts :=
  let subject := (t.child? .value).map fun v => Text.compact (bare v).text
  let cases := ((t.child? .body).map namedChildren).getD [] |>.filter fun c => c.kind == .switchCase
  if cases.length < 2 then {}
  else
    { chains := [
        { line             := t.firstLine
          branchCount      := cases.length
          discriminant     := subject
          usesTypeCheck    := subject.any fun s => Text.startsWith s "typeof "
          comparesLiterals := cases.all fun c =>
            (c.child? .value).any fun v => v.kind == .string }] }

/-! ### Other constructs -/

def instantiationFacts (t : Tree) : Facts :=
  match t.child? .function with
  | none             => {}
  | some constructor =>
    let count := ((t.child? .arguments).map fun args =>
      ((namedChildren args).filter fun a => a.kind != .comment).length).getD 0
    { instantiations := [⟨Text.afterLast (· == '.') constructor.text, t.firstLine, count⟩] }

/-! ### The walk -/

/-- What a tree is to the tree around it, where that changes how it is read. -/
inductive Place where
  | anywhere
  | classBody
  | classMember
  /-- A declared variable. -/
  | variable (isConst : Bool)
  /-- A function that has been recorded under a name. -/
  | callable (name : String)
  deriving DecidableEq, Repr, Inhabited

/-- What is known about the place of a tree. -/
structure Scope where
  /-- The variables of the script that can be assigned again. -/
  mutables : List String := []
  /-- The name of the function around it. -/
  function : Option String := none
  inConstant : Bool := false
  isExported : Bool := false
  place : Place := .anywhere
  /-- It is the operand of a minus sign. -/
  negated : Bool := false
  /-- It stands in the `else` of another statement. -/
  afterElse : Bool := false
  /-- What its value is bound to. -/
  target : Option Tree := none
  deriving Inhabited

namespace Scope

/-- The scope of the parts of a tree. -/
def inner (s : Scope) : Scope :=
  { s with isExported := false, place := .anywhere, negated := false, afterElse := false
           target := none }

def constant (s : Scope) : Scope := { s.inner with inConstant := true }

/-- The scope inside a function. -/
def inside (s : Scope) (name : String) : Scope := { mutables := s.mutables, function := some name }

/-- The scope of a function's value that is recorded under a name. -/
def valueOf (s : Scope) (name : String) : Scope := { s.inner with place := .callable name }

end Scope

/-- An assignment inside a function to a variable of the script. -/
def writeFacts (scope : Scope) (role : Role) (t : Tree) : Facts :=
  match t.child? role, scope.function with
  | some target, some function =>
    if target.kind == .identifier && scope.mutables.contains target.text then
      { globalWrites := [⟨target.text, function, t.firstLine⟩] }
    else {}
  | _, _                       => {}

/-- A function outside all functions. -/
def freeFunction (scope : Scope) (f : FunctionDef) : Facts :=
  if scope.function.isNone then { functions := [{ f with isExported := scope.isExported }] } else {}

/-- What a tree says by itself, without its parts, in an ordinary place. -/
def plainFacts (scope : Scope) (t : Tree) : Facts :=
  match t.kind with
  | .importStatement => importFacts t
  | .exportStatement => if (t.child? .source).isSome then reExportFacts t else {}
  | .functionDeclaration | .generatorDeclaration =>
    freeFunction scope (functionRecord (nameOf t) t)
  | .identifier | .typeIdentifier | .shorthand => { identifiers := [t.text] }
  | .number =>
    let value := if scope.negated then "-" ++ t.text else t.text
    { numbers := [⟨value, t.firstLine, scope.inConstant⟩] }
  | .string | .template => { strings := [unquote t.text] }
  | .call => callFacts scope.target t
  | .instantiation => instantiationFacts t
  | .ifStatement => if scope.afterElse then {} else ifFacts t
  | .switchStatement => switchFacts t
  | .assignment | .augmentedAssignment => writeFacts scope .left t
  | .update => writeFacts scope .argument t
  | _ => {}

/-- What a tree says by itself, without its parts. -/
def ownFacts (scope : Scope) (t : Tree) : Facts :=
  match scope.place with
  | .anywhere    => plainFacts scope t
  | .classMember =>
    match memberMethods t with
    | []      => if t.kind == .field then {} else plainFacts scope t
    | methods => { methods }
  | .variable _  =>
    match functionValue? t with
    | some v => freeFunction scope (functionRecord (nameOf t) v)
    | none   => {}
  | .classBody | .callable _ => {}

/-- The scope of a part of a class member; `none` if it is not read. -/
def memberPartScope (scope : Scope) (t part : Tree) : Option Scope :=
  match t.kind with
  | .method =>
    if part.role == .name then none
    else some (scope.inside (Text.dropLeading (· == '#') (nameOf t)))
  | .field  =>
    if part.role == .value then
      if (functionValue? t).isSome then some (scope.valueOf (nameOf t))
      else some (if isConstantName (nameOf t) then scope.constant else scope.inner)
    else if part.role == .type && (functionValue? t).isNone then some scope.inner
    else none
  | _       => some scope.inner

/-- The scope of a part of a declared variable. -/
def variablePartScope (scope : Scope) (isConst : Bool) (t part : Tree) : Option Scope :=
  if part.role == .type then some scope.inner
  else if part.role == .value then
    if (functionValue? t).isSome then some (scope.valueOf (nameOf t))
    else
      let simple := (t.child? .name).any fun n => n.kind == .identifier
      let scope := if isConst && simple && isConstantName (nameOf t) then scope.constant
        else scope.inner
      some { scope with target := t.child? .name }
  else none

/-- The scope of a part of a tree in an ordinary place. -/
def plainPartScope (scope : Scope) (t part : Tree) : Option Scope :=
  let inner := scope.inner
  match t.kind with
  | .importStatement => none
  | .exportStatement =>
    if (t.child? .source).isSome then none else some { inner with isExported := true }
  | .classDeclaration | .abstractClass | .classExpression =>
    if part.kind == .heritage || part.kind == .decorator then some inner
    else if part.role == .body then some { inner with place := .classBody }
    else none
  | .interfaceDeclaration =>
    if part.kind == .extendsTypes || part.role == .body then some inner else none
  | .functionDeclaration | .generatorDeclaration =>
    if part.role == .name then none else some (scope.inside (nameOf t))
  | .lexicalDeclaration | .variableDeclaration =>
    if part.kind == .declarator then
      let isConst := (t.children.head?.map fun k => k.text == "const").getD false
      some { inner with isExported := scope.isExported, place := .variable isConst }
    else none
  | .enumDeclaration => if part.role == .body then some scope.constant else none
  | .unary => some { inner with negated := roleText .operator t == "-" }
  | .elseClause => some { inner with afterElse := true }
  | _ => some inner

/-- The scope in which a part of a tree is read; `none` if it is not. -/
def partScope (scope : Scope) (t part : Tree) : Option Scope :=
  match scope.place with
  | .anywhere         => plainPartScope scope t part
  | .classBody        => some { scope.inner with place := .classMember }
  | .classMember      =>
    if [.method, .field, .abstractMethod, .methodSignature].contains t.kind then
      memberPartScope scope t part
    else plainPartScope scope t part
  | .variable isConst => variablePartScope scope isConst t part
  | .callable name    => if part.role == .name then none else some (scope.inside name)

/-- A class or an interface, where it is recorded as one. -/
def ownClass? (scope : Scope) (t : Tree) (methods : List FunctionDef) : Option ClassDef :=
  match t.kind with
  | .classDeclaration | .abstractClass | .classExpression =>
    some (classRecord scope.isExported t methods)
  | .interfaceDeclaration => some (interfaceRecord scope.isExported t)
  | _ => none

mutual

/-- The facts of a tree in a scope. -/
def facts (scope : Scope) : Tree → Facts
  | .leaf kind role gap text line => ownFacts scope (.leaf kind role gap text line)
  | .node kind role first rest    =>
    let t := Tree.node kind role first rest
    let place := partScope scope t
    let inside := ((place first).elim {} fun s => facts s first) ++ factsAll place rest
    match ownClass? scope t inside.methods with
    | some c => { inside with classes := inside.classes ++ [c], methods := [] }
    | none   => ownFacts scope t ++ inside

/-- The facts of several trees, each in the scope that `place` gives it. -/
def factsAll (place : Tree → Option Scope) : List Tree → Facts
  | []      => {}
  | t :: ts => ((place t).elim {} fun s => facts s t) ++ factsAll place ts

end

/-! ### Whole scripts -/

/-- The names declared by a statement whose variables can be assigned again. -/
def mutableNames (declaration : Tree) : List String :=
  let isConst := (declaration.children.head?.map fun k => k.text == "const").getD false
  if (declaration.kind == .lexicalDeclaration || declaration.kind == .variableDeclaration)
      && !isConst then
    declaration.children.filterMap fun d =>
      ((d.child? .name).filter fun n => n.kind == .identifier).map Tree.text
  else []

/-- The variables of a script that its functions can assign. -/
def scriptMutables (forest : Forest) : List String :=
  (forest.filter fun s => s.kind.isNamed).flatMap fun s =>
    if s.kind == .exportStatement then ((s.child? .declaration).map mutableNames).getD []
    else mutableNames s

/-- The facts of a whole script. -/
def scriptFacts (forest : Forest) : Facts :=
  factsAll (fun _ => some { mutables := scriptMutables forest }) forest

/-- Markup is read in every file but plain TypeScript ones. -/
def dialectOf (file : Path) : Dialect :=
  if ["ts", "mts", "cts"].contains (file.extension?.getD "") then .plain else .markup

/-- The outline of a script, or the line of the first fault. -/
def outline (file : Path) (language : Language) (text : String) : Except Nat Outline := do
  let forest ← parse (dialectOf file) text.toList
  return (scriptFacts forest).outline file language (Text.lineCount text) relativeBase

end ArchReview.Script

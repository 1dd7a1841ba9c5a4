import ArchReview.Grammar.Python
import ArchReview.Outline.Facts

/-!
# Outlines of Python modules

`Python.facts` collects the facts of a syntax tree. A function belongs to the class around it if
nothing but statements lies between them; a function inside a function belongs to none. A class is
recorded when it ends, so an inner class comes before the one around it.
-/

namespace ArchReview.Python

/-! ### Bodies -/

/-- Branching constructs, each counted once. -/
def Kind.branches : Kind → Nat
  | .ifStatement | .elifClause | .forStatement | .whileStatement | .booleanOperator | .caseClause => 1
  | _                                                                                           => 0

mutual

/-- Branching constructs in a part of a body; definitions inside it are not looked into. -/
def branches : Tree → Nat
  | .leaf ..                => 0
  | .node kind _ first rest =>
    if kind == .functionDefinition || kind == .classDefinition then 0
    else kind.branches + branches first + branchesAll rest

def branchesAll : List Tree → Nat
  | []      => 0
  | t :: ts => branches t + branchesAll ts

end

/-- The field that a tree names, if it is `self.field`. -/
def selfField? (t : Tree) : Option String :=
  match t.child? .object, t.child? .attribute with
  | some object, some field =>
    if t.kind == .attribute && object.kind == .identifier && object.text == "self" then
      some field.text
    else none
  | _, _                    => none

mutual

/-- The fields of `self` that a tree mentions. -/
def selfFields : Tree → List String
  | .leaf ..                   => []
  | .node kind role first rest =>
    (selfField? (.node kind role first rest)).toList ++ selfFields first ++ selfFieldsAll rest

def selfFieldsAll : List Tree → List String
  | []      => []
  | t :: ts => selfFields t ++ selfFieldsAll ts

end

/-- An expression statement that is just a tree of the given kind. -/
def isLone (kind : Kind) (statement : Tree) : Bool :=
  statement.kind == .expressionStatement &&
    match namedChildren statement with
    | [only] => only.kind == kind
    | _      => false

/-- The statements of a body without comments and without its documentation. -/
def bodyStatements (body : Tree) : List Tree :=
  let all := (namedChildren body).filter fun t => t.kind != .comment
  match all with
  | first :: rest => if isLone .string first then rest else all
  | []            => []

def isStub (body : Tree) : Bool :=
  (bodyStatements body).all fun s => s.kind == .passStatement || isLone .ellipsis s

/-- The body starts by raising that it is not implemented. -/
def raisesNotImplemented (body : Tree) : Bool :=
  match bodyStatements body with
  | first :: _ =>
    first.kind == .raiseStatement &&
      match namedChildren first with
      | raised :: _ =>
        let called := if raised.kind == .call then raised.child? .function else none
        let name := (called.getD raised).text
        Text.endsWith name "NotImplementedError" || name == "NotImplemented"
      | []          => false
  | []         => false

/-! ### Imports -/

/-- Where a relative import points, seen from a directory: one dot is the directory itself, each
further one goes up. -/
def relativeBase (directory : Path) (module : String) : Path :=
  let level := (module.toList.takeWhile (· == '.')).length
  let rest := String.ofList (module.toList.drop level)
  let up := (List.replicate (level - 1) ()).foldl (fun p _ => p.join ⟨".."⟩) directory
  let path := if rest.isEmpty then up else up.join ⟨rest.map fun c => if c == '.' then '/' else c⟩
  path.normalize

def roleText (role : Role) (t : Tree) : String := ((t.child? role).map Tree.text).getD ""

/-- The module and the name that one part of an `import` statement brings in. -/
def importedModule? (part : Tree) : Option (String × String) :=
  match part.kind with
  | .dottedName    => some (part.text, Text.before (· == '.') part.text)
  | .aliasedImport => some (roleText .name part, roleText .newName part)
  | _              => none

def importClauses (t : Tree) : List ImportClause :=
  (namedChildren t).filterMap fun part =>
    (importedModule? part).bind fun (module, binding) =>
      if module.isEmpty then none
      else some
        { modulePath := module, importedNames := [module], bindings := [binding]
          isRelative := false, kind := .static, line := t.firstLine }

/-- The name that a `from` import takes out of its module. -/
def takenName (part : Tree) : List String :=
  if part.kind == .aliasedImport then ((part.child? .name).map Tree.text).toList else [part.text]

/-- The name under which it is known. -/
def boundName (part : Tree) : List String :=
  if part.kind == .aliasedImport then ((part.child? .newName).map Tree.text).toList
  else [Text.afterLast (· == '.') part.text]

def fromClause (t : Tree) : ImportClause :=
  let module := roleText .moduleName t
  let parts := t.childrenIn .name
  let all := if t.children.any fun c => c.kind == .wildcardImport then ["*"] else []
  { modulePath    := module
    importedNames := parts.flatMap takenName ++ all
    bindings      := parts.flatMap boundName
    isRelative    := Text.startsWith module "."
    kind          := .static
    line          := t.firstLine }

/-! ### Functions and classes -/

/-- Names that start with an underscore are private, unless they have two at both ends. -/
def isPublic (name : String) : Bool :=
  !Text.startsWith name "_" || (Text.startsWith name "__" && Text.endsWith name "__")

/-- The name and the annotation of a parameter; markers in the list are no parameters. -/
def parameter? (t : Tree) : Option (String × Option Tree) :=
  match t.kind with
  | .identifier | .listSplat | .mapSplat => some (t.text, none)
  | .typedParameter                      =>
    some ((((namedChildren t).head?).map Tree.text).getD "", t.child? .type)
  | .defaultParameter                    => some (roleText .name t, t.child? .type)
  | _                                    => none

/-- The annotations of the parameters. The receiver of a method is left out. -/
def parameterTypes (isMethod : Bool) (parameters : Tree) : List (Option String) :=
  let all := (namedChildren parameters).filterMap parameter?
  let counted := match all with
    | (name, type) :: rest =>
      if isMethod && (name == "self" || name == "cls") then rest else (name, type) :: rest
    | []                   => []
  counted.map fun (_, type) => type.map fun t => Text.compact t.text

/-- What is known about the place of a tree. -/
structure Scope where
  /-- The name of the function around it. -/
  function : Option String := none
  inClassBody : Bool := false
  inConstant : Bool := false
  /-- The decorators in front of it. -/
  decorators : List String := []
  /-- It is the operand of a minus sign. -/
  negated : Bool := false
  deriving Repr, Inhabited

/-- The scope of the parts of a tree. -/
def Scope.inner (s : Scope) : Scope := { s with decorators := [], negated := false }

/-- The record of a function definition. -/
def functionRecord (scope : Scope) (t : Tree) : FunctionDef :=
  let name := ((t.child? .name).map Tree.text).getD "<anonymous>"
  let types := ((t.child? .parameters).map (parameterTypes scope.inClassBody)).getD []
  let body := t.child? .body
  { name
    startLine            := t.firstLine
    endLine              := t.lastLine
    parameterCount       := types.length
    parameterTypes       := types
    isExported           := isPublic name && scope.function.isNone
    isStatic             := scope.decorators.any fun d =>
      Text.endsWith d "staticmethod" || Text.endsWith d "classmethod"
    isAbstract           := scope.decorators.any fun d => Text.endsWith d "abstractmethod"
    decorators           := scope.decorators
    complexity           := 1 + ((body.map fun b => branchesAll b.children).getD 0)
    isStub               := (body.map isStub).getD false
    raisesNotImplemented := (body.map raisesNotImplemented).getD false
    instanceFields       := Text.nameSet ((body.map selfFields).getD []) }

/-- A function is a method directly in a class, and recorded on its own outside all definitions. -/
def functionFacts (scope : Scope) (t : Tree) : Facts :=
  let f := functionRecord scope t
  if scope.inClassBody then { methods := [f] }
  else if scope.function.isNone then { functions := [f] }
  else {}

def isInterfaceBase (base : String) : Bool :=
  ["ABC", "abc.ABC", "Protocol", "typing.Protocol"].contains base ||
    Text.contains base "ABCMeta" || Text.startsWith base "Protocol["

/-- The record of a class definition with the given methods. -/
def classRecord (scope : Scope) (t : Tree) (methods : List FunctionDef) : ClassDef :=
  let name := ((t.child? .name).map Tree.text).getD "<anonymous>"
  let bases := match t.child? .superclasses with
    | some list => ((namedChildren list).filter fun b => b.kind != .comment).map fun b =>
        Text.compact b.text
    | none      => []
  let empty : ClassDef :=
    { name
      startLine   := t.firstLine
      endLine     := t.lastLine
      bases
      isExported  := isPublic name && scope.function.isNone
      isInterface := bases.any isInterfaceBase || methods.any fun m => m.isAbstract }
  empty.addMethods methods

/-- The facts of a class: its own record behind those of the classes inside it. -/
def classFacts (scope : Scope) (t : Tree) (inside : Facts) : Facts :=
  { inside with
    classes := inside.classes ++ [classRecord scope t inside.methods]
    methods := [] }

def decoratorName (t : Tree) : String :=
  Text.before (· == '(') (Text.trimString (Text.dropLeading (· == '@') t.text))

/-! ### Expressions -/

/-- Capitalised names that do not read as constants. -/
def looksLikeClass (name : String) : Bool :=
  (name.toList.head?.map Char.isUpper).getD false && !isConstantName name

/-- The name that a call calls, if it is a name or an attribute. -/
def calledName? (t : Tree) : Option String :=
  (t.child? .function).bind fun f =>
    match f.kind with
    | .identifier => some f.text
    | .attribute  => some (roleText .attribute f)
    | _           => none

def callFacts (t : Tree) : Facts :=
  match calledName? t with
  | some name =>
    if looksLikeClass name then
      let count := ((t.child? .arguments).map fun args =>
        ((namedChildren args).filter fun a => a.kind != .comment).length).getD 0
      { instantiations := [⟨name, t.firstLine, count⟩] }
    else {}
  | none      => {}

mutual

/-- Takes the parentheses off a whole expression. -/
def bare : Tree → Tree
  | .leaf k r g s l            => .leaf k r g s l
  | .node kind role first rest =>
    if kind == .parenthesized then
      if first.kind.isNamed then bare first
      else (bareFirst rest).getD (.node kind role first rest)
    else .node kind role first rest

/-- The first named tree, without parentheses. -/
def bareFirst : List Tree → Option Tree
  | []      => none
  | t :: ts => if t.kind.isNamed then some (bare t) else bareFirst ts

end

/-- Whether a symbol tests for equality. -/
def isEquality (t : Tree) : Bool := t.kind == .symbol && (t.text == "==" || t.text == "is")

def branchTest (condition : Tree) : BranchTest :=
  let test := bare condition
  match test.kind with
  | .comparison =>
    match namedChildren test with
    | [left, right] =>
      if test.children.any isEquality then
        let subject := Text.compact left.text
        { discriminant    := some subject
          usesTypeCheck   := Text.startsWith subject "type("
          comparesLiteral := right.kind == .string }
      else {}
    | _             => {}
  | .call       =>
    if roleText .function test == "isinstance" then
      let subject := (test.child? .arguments).bind fun args => (namedChildren args).head?
      { discriminant := subject.map fun s => Text.compact s.text, usesTypeCheck := true }
    else {}
  | _           => {}

def ifFacts (t : Tree) : Facts :=
  let elifs := (t.childrenIn .alternative).filter fun a => a.kind == .elifClause
  let conditions := (t.child? .condition).toList ++ elifs.filterMap (Tree.child? .condition)
  if conditions.length < 2 then {}
  else { chains := [Chain.ofTests t.firstLine (conditions.map branchTest)] }

mutual

/-- The clauses of a `match` statement, also those inside its block. -/
def caseClauses : Tree → List Tree
  | .leaf ..                   => []
  | .node kind role first rest =>
    if kind == .caseClause then [.node kind role first rest]
    else if kind == .block then caseClauses first ++ caseClausesAll rest
    else []

def caseClausesAll : List Tree → List Tree
  | []      => []
  | t :: ts => caseClauses t ++ caseClausesAll ts

end

def matchFacts (t : Tree) : Facts :=
  let patterns := (caseClausesAll t.children).map fun c =>
    Text.trimString (Text.before (· == ':') c.text)
  let patterns := patterns.filter fun p => p != "case _"
  if patterns.length < 2 then {}
  else
    { chains := [
        { line             := t.firstLine
          branchCount      := patterns.length
          discriminant     := (t.child? .subject).map fun s => Text.compact s.text
          usesTypeCheck    := patterns.any fun p => Text.contains p "("
          comparesLiterals := patterns.all fun p =>
            Text.contains p "\"" || Text.contains p "'" }] }

def globalFacts (scope : Scope) (t : Tree) : Facts :=
  match scope.function with
  | none          => {}
  | some function =>
    { globalWrites := ((namedChildren t).filter fun c => c.kind == .identifier).map fun c =>
        ⟨c.text, function, t.firstLine⟩ }

/-- An assignment to a constant, outside functions. -/
def assignsConstant (scope : Scope) (t : Tree) : Bool :=
  scope.function.isNone &&
    match t.child? .left with
    | some left => left.kind == .identifier && isConstantName left.text
    | none      => false

/-! ### The walk -/

/-- What a tree says by itself, without its parts. -/
def ownFacts (scope : Scope) (t : Tree) : Facts :=
  match t.kind with
  | .importStatement    => { imports := importClauses t }
  | .importFrom         => { imports := [fromClause t] }
  | .functionDefinition => functionFacts scope t
  | .identifier         => { identifiers := [t.text] }
  | .number             =>
    let value := if scope.negated then "-" ++ t.text else t.text
    { numbers := [⟨value, t.firstLine, scope.inConstant⟩] }
  | .string             => { strings := [unquote t.text] }
  | .call               => callFacts t
  | .ifStatement        => ifFacts t
  | .matchStatement     => matchFacts t
  | .globalStatement    => globalFacts scope t
  | _                   => {}

/-- The scope in which a part of a tree is read; `none` if it is not. -/
def partScope (scope : Scope) (t part : Tree) : Option Scope :=
  let inner := scope.inner
  match t.kind with
  | .importStatement | .importFrom | .futureImport | .globalStatement => none
  | .classDefinition    =>
    if part.role == .superclasses then some inner
    else if part.role == .body then
      some { function := scope.function, inClassBody := true }
    else none
  | .functionDefinition =>
    if part.role == .name then none
    else some { function := some (((t.child? .name).map Tree.text).getD "<anonymous>") }
  | .decorated          =>
    if part.kind == .decorator then some inner
    else if part.role == .definition then
      let marks := t.children.filter fun c => c.kind == .decorator
      some { inner with decorators := marks.map decoratorName }
    else none
  | .keywordArgument    => if part.role == .value then some inner else none
  | .unaryOperator      => some { inner with negated := roleText .operator t == "-" }
  | .assignment         =>
    if assignsConstant scope t then
      if part.role == .type then some inner
      else if part.role == .right then some { inner with inConstant := true }
      else none
    else some inner
  | _                   => some inner

mutual

/-- The facts of a tree in a scope. -/
def facts (scope : Scope) : Tree → Facts
  | .leaf kind role gap text line => ownFacts scope (.leaf kind role gap text line)
  | .node kind role first rest    =>
    let t := Tree.node kind role first rest
    let place := partScope scope t
    let inside := ((place first).elim {} fun s => facts s first) ++ factsAll place rest
    if kind == .classDefinition then classFacts scope t inside else ownFacts scope t ++ inside

/-- The facts of several trees, each in the scope that `place` gives it. -/
def factsAll (place : Tree → Option Scope) : List Tree → Facts
  | []      => {}
  | t :: ts => ((place t).elim {} fun s => facts s t) ++ factsAll place ts

end

/-- The facts of a whole module. -/
def moduleFacts (forest : Forest) : Facts := factsAll (fun _ => some {}) forest

/-- The outline of a Python module, or the line of the first fault. -/
def outline (file : Path) (language : Language) (text : String) : Except Nat Outline := do
  let forest ← parse text.toList
  return (moduleFacts forest).outline file language (Text.lineCount text) relativeBase

end ArchReview.Python

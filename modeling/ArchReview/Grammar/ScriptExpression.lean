import ArchReview.Grammar.ScriptType

/-!
# Expressions in scripts

From literals and patterns up to assignments and arrow functions. Every operator that takes two
operands is left-associative but for powers and assignments.
-/

namespace ArchReview.Script

open Grammar

/-! ### Patterns -/

/-- A pattern with a default value. -/
def defaulted (self : Rules) (target : Forest) : Step Forest := do
  if (← ahead) == "=" then
    let equals ← take .symbol
    let value ← self .value
    return node .assignmentPattern (withRole .left target ++ equals ++ withRole .right value)
  else return target

def restPattern (self : Rules) : Step Forest := do
  let dots ← symbol "..."
  let inside ← self .pattern
  return node .restPattern (dots ++ inside)

def propertyPattern (self : Rules) : Step Forest := do
  let c ← get
  if c.ahead == "..." then restPattern self
  else if c.look.shape == .word && c.next.ahead != ":" then
    let title ← take .shorthandPattern
    defaulted self title
  else
    let key ← propertyName self
    let colon ← symbol ":"
    let target ← self .pattern
    let value ← defaulted self target
    return node .pairPattern (withRole .key key ++ colon ++ withRole .value value)

def elementPattern (self : Rules) : Step Forest := do
  if (← ahead) == "..." then restPattern self
  else if (← ahead) == "," then return []
  else
    let target ← self .pattern
    defaulted self target

def pattern (self : Rules) : Step Forest := do
  let c ← get
  if c.ahead == "\x7b" then within do
    let opening ← take .symbol
    let items ← commaList (propertyPattern self) (closes "\x7d")
    let closing ← symbol "\x7d"
    return node .objectPattern (opening ++ items ++ closing)
  else if c.ahead == "[" then within do
    let opening ← take .symbol
    let items ← commaList (elementPattern self) (closes "]")
    let closing ← symbol "]"
    return node .arrayPattern (opening ++ items ++ closing)
  else word .identifier

/-- The kind of pattern that a literal turns into. -/
def patternKind? : Kind → Option Kind
  | .objectLiteral => some .objectPattern
  | .arrayLiteral  => some .arrayPattern
  | .pair          => some .pairPattern
  | .spread        => some .restPattern
  | _              => none

mutual

/-- The pattern that a literal on the left of an assignment stands for. -/
def toPattern : Tree → Tree
  | .leaf kind role gap text line =>
    .leaf (if kind == .shorthand then .shorthandPattern else kind) role gap text line
  | .node kind role first rest    =>
    match patternKind? kind with
    | some pattern =>
      .node pattern role (if first.role == .key then first else toPattern first) (toPatterns rest)
    | none         => .node kind role first rest

def toPatterns : List Tree → List Tree
  | []      => []
  | t :: ts => (if t.role == .key then t else toPattern t) :: toPatterns ts

end

/-- Kinds of expressions that cannot be assigned to. -/
def isFixed (kind : Kind) : Bool :=
  [.number, .string, .template, .call, .binary, .unary, .update, .instantiation,
   .functionExpression, .classExpression].contains kind

def isTarget (forest : Forest) : Bool :=
  match main? forest with
  | some t => !isFixed t.kind
  | none   => false

/-! ### Literals -/

def template (self : Rules) : Step Forest := templateOf .template (self .sequence)

/-- The body of a regular expression and its closing slash; `inClass` holds between brackets. -/
def spanRegex (inClass : Bool) (read : List Char) : List Char → Option (List Char × List Char)
  | '\\' :: c :: cs =>
    if c == '\n' then none else spanRegex inClass (c :: '\\' :: read) cs
  | c :: cs         =>
    if c == '\n' then none
    else if c == '/' && !inClass then some ((c :: read).reverse, cs)
    else spanRegex ((inClass || c == '[') && c != ']') (c :: read) cs
  | []              => none

def regex : Step Forest := do
  let c ← get
  match spanRegex false [] (c.look.start.drop 1) with
  | some (body, rest) =>
    let flags := rest.takeWhile Char.isAlpha
    takePart .phrase (1 + body.length + flags.length)
  | none              => failHere

/-- A function body is next. -/
def atBlock (c : Cursor) : Bool := c.ahead == "\x7b"

/-- `get`, `set`, `async`, and the star of a generator in front of a method's name. -/
def methodMarks : Step Forest := do
  let words ← repeatWhile do
    let c ← get
    if ["get", "set", "async", "static"].any (isModifier c) then return some (← take .symbol)
    else return none
  let star ← symbol? "*"
  return words ++ star

def objectMember (self : Rules) : Step Forest := do
  if (← ahead) == "..." then
    let dots ← take .symbol
    let value ← self .value
    return node .spread (dots ++ value)
  let marks ← methodMarks
  let c ← get
  let plain := c.look.shape == .word
  let next := c.next.ahead
  if marks.isEmpty && plain && next != ":" && next != "(" && next != "<" then
    let title ← take .shorthand
    if (← ahead) == "=" then return (← defaulted self (title.map toPattern)) else return title
  let title ← propertyName self
  let c ← get
  if c.ahead == "(" || c.ahead == "<" then
    let s ← self .signature
    let body ← self .block
    return node .method (marks ++ withRole .name title ++ s ++ withRole .body body)
  if !marks.isEmpty then failHere
  let colon ← symbol ":"
  let value ← self .value
  return node .pair (withRole .key title ++ colon ++ withRole .value value)

def objectLiteral (self : Rules) : Step Forest := within do
  let opening ← symbol "\x7b"
  let items ← commaList (objectMember self) (closes "\x7d")
  let closing ← symbol "\x7d"
  return node .objectLiteral (opening ++ items ++ closing)

/-- A value, a spread value, or nothing. -/
def listItem (self : Rules) : Step Forest := do
  if (← ahead) == "," then return []
  else if (← ahead) == "..." then
    let dots ← take .symbol
    let value ← self .value
    return node .spread (dots ++ value)
  else self .value

def arrayLiteral (self : Rules) : Step Forest := within do
  let opening ← symbol "["
  let items ← commaList (listItem self) (closes "]")
  let closing ← symbol "]"
  return node .arrayLiteral (opening ++ items ++ closing)

def arguments (self : Rules) : Step Forest := within do
  let opening ← symbol "("
  let items ← commaList (listItem self) (closes ")")
  let closing ← symbol ")"
  return node .arguments (opening ++ items ++ closing)

def parenthesized (self : Rules) : Step Forest := within do
  let opening ← symbol "("
  let value ← self .sequence
  let type ← typeMark? self
  let closing ← symbol ")"
  return node .parenthesized (opening ++ value ++ type ++ closing)

/-! ### Functions and classes -/

def functionExpression (self : Rules) : Step Forest := do
  let async ← symbol? "async"
  let functionWord ← symbol "function"
  let star ← symbol? "*"
  let title ← when? (fun c => c.look.shape == .word) (word .identifier)
  let s ← self .signature
  let body ← self .block
  return node (if star.isEmpty then .functionExpression else .phrase)
    (async ++ functionWord ++ star ++ withRole .name title ++ s ++ withRole .body body)

/-- The superclass in a class head, with its type arguments. -/
def extendsClause? (self : Rules) : Step Forest := do
  if (← ahead) == "extends" then
    let extendsWord ← take .symbol
    let base ← self .base
    let args ← when? atAngle (typeArguments self)
    return node .extendsClause (extendsWord ++ withRole .value base ++ args)
  else return []

def implementsClause? (self : Rules) : Step Forest := do
  if (← ahead) == "implements" then
    let implementsWord ← take .symbol
    let types ← commaList (self .type) (closes "\x7b")
    return node .implementsClause (implementsWord ++ types)
  else return []

/-- What follows the word `class`. -/
def classTail (self : Rules) : Step Forest := do
  let c ← get
  let title ←
    if c.look.shape == .word && c.ahead != "extends" && c.ahead != "implements" then
      word .typeIdentifier
    else pure []
  let generics ← typeParameters? self
  let bases ← extendsClause? self
  let interfaces ← implementsClause? self
  let heritage :=
    nodeUnless (bases.isEmpty && interfaces.isEmpty) .heritage (bases ++ interfaces)
  let body ← self .classBody
  return withRole .name title ++ generics ++ heritage ++ withRole .body body

def classExpression (self : Rules) : Step Forest := do
  let marks ← decorators self
  let classWord ← symbol "class"
  let tail ← classTail self
  return node .classExpression (marks ++ classWord ++ tail)

/-- The arrow and the body behind the parameters of an arrow function. -/
def arrowTail (self : Rules) (head : Forest) : Step Forest := do
  let arrow ← symbol "=>"
  let body ← if atBlock (← get) then self .block else self .value
  return node .arrowFunction (head ++ arrow ++ withRole .body body)

/-- An arrow function with its parameters in parentheses. -/
def arrowFunction (self : Rules) : Step Forest := do
  let async ← symbol? "async"
  let generics ← typeParameters? self
  let items ← parameters self
  let result ← if (← get).typedArrows then resultAnnotation? self else pure []
  arrowTail self (async ++ generics ++ items ++ result)

/-- An arrow function with one plain parameter. -/
def shortArrow (self : Rules) : Step Forest := do
  let c ← get
  let async ← if c.ahead == "async" && c.next.look.shape == .word then take .symbol else pure []
  let parameter ← word .identifier
  arrowTail self (async ++ withRole .parameter parameter)

/-- Parentheses that may hold the parameters of an arrow function. -/
def mayBeArrow (c : Cursor) : Bool :=
  c.ahead == "(" && ["=>", ":"].contains (markBehindBrackets c)

/-- A single parameter before an arrow. -/
def atShortArrow (c : Cursor) : Bool :=
  c.look.shape == .word &&
    (c.next.ahead == "=>" ||
      (c.ahead == "async" && c.next.look.shape == .word && !c.next.look.fresh &&
        c.next.next.ahead == "=>"))

/-! ### Operands -/

def newExpression (self : Rules) (chain : Forest → Step (Option Forest)) : Step Forest := do
  let newWord ← symbol "new"
  if (← ahead) == "." then
    let dot ← take .symbol
    let part ← word .propertyName
    return node .phrase (newWord ++ dot ++ part)
  let first ← operandStart
  let base ← extend chain first
  let generics ← when? atAngle (orTry (typeArguments self) (return []))
  let args ← when? (fun c => c.aheadOperator == "(") (arguments self)
  return node .instantiation
    (newWord ++ withRole .function base ++ generics ++ withRole .arguments args)
where
  /-- What can be instantiated. -/
  operandStart : Step Forest := do
    let c ← get
    if c.ahead == "(" then parenthesized self
    else if c.ahead == "new" then self .reference
    else if c.ahead == "class" then classExpression self
    else if c.ahead == "function" then functionExpression self
    else if c.ahead == "this" then take .this
    else if c.ahead == "[" then arrayLiteral self
    else word .identifier

/-- A member of an operand. -/
def memberStep (self : Rules) (tree : Forest) : Step (Option Forest) := do
  let c ← get
  let next := c.aheadOperator
  if next == "." then
    let dot ← take .symbol
    let part ← if (← get).look.shape == .privateWord then take .privateName
      else word .propertyName
    return some (node .member (withRole .object tree ++ dot ++ withRole .property part))
  else if next == "[" then
    let inside ← within do
      let opening ← take .symbol
      let value ← self .sequence
      let closing ← symbol "]"
      pure (opening ++ value ++ closing)
    return some (node .phrase (withRole .object tree ++ inside))
  else if next == "!" && !c.look.fresh then
    let mark ← take .symbol
    return some (node .phrase (tree ++ mark))
  else return none

/-- A member, an index or a call behind `?.`. -/
def optionalStep (self : Rules) (tree : Forest) : Step Forest := do
  let chain ← node .phrase <$> take .symbol
  let c ← get
  if c.ahead == "(" then
    let args ← arguments self
    return node .call (withRole .function tree ++ chain ++ withRole .arguments args)
  else if c.ahead == "<" then
    let generics ← typeArguments self
    let args ← arguments self
    return node .call (withRole .function tree ++ chain ++ generics ++ withRole .arguments args)
  else if c.ahead == "[" then
    let inside ← within do
      let opening ← take .symbol
      let value ← self .sequence
      let closing ← symbol "]"
      pure (opening ++ value ++ closing)
    return node .phrase (withRole .object tree ++ chain ++ inside)
  else
    let part ← if c.look.shape == .privateWord then take .privateName else word .propertyName
    return node .member (withRole .object tree ++ chain ++ withRole .property part)

/-- The tokens after which type arguments stand alone. -/
def endsInstantiation (c : Cursor) : Bool :=
  c.look.shape == .finish || c.look.fresh ||
    (c.look.shape == .mark &&
      [")", "]", "\x7d", ":", ";", ",", ".", "?.", "=", "==", "===", "!=", "!==", "&&", "||", "??",
        "?", "|", "&", "^"].contains c.look.text)

/-- Type arguments and the call they belong to; `alone` if there may be none. -/
def genericStep (self : Rules) (alone : Bool) (tree : Forest) : Step (Option Forest) :=
  orTry (do
    let generics ← typeArguments self
    let c ← get
    if c.aheadOperator == "(" then
      let args ← arguments self
      return some (node .call (withRole .function tree ++ generics ++ withRole .arguments args))
    else if c.look.shape == .backquote then
      let text ← template self
      return some (node .call (withRole .function tree ++ generics ++ withRole .arguments text))
    else if alone && endsInstantiation c then return some (node .phrase (tree ++ generics))
    else failHere) (return none)

/-- A member, an index, a call or a template behind an operand; type arguments without a call only
if `alone`. -/
def trailer (self : Rules) (alone : Bool) (tree : Forest) : Step (Option Forest) := do
  let c ← get
  let next := c.aheadOperator
  if next == "?." then return some (← optionalStep self tree)
  else if next == "(" then
    let args ← arguments self
    return some (node .call (withRole .function tree ++ withRole .arguments args))
  else if next == "<" || next == "<<" then genericStep self alone tree
  else if c.look.shape == .backquote then
    let text ← template self
    return some (node .call (withRole .function tree ++ withRole .arguments text))
  else memberStep self tree

/-- Words with a meaning of their own in expressions. -/
def wordOperand (self : Rules) : Step Forest := do
  let c ← get
  let text := c.ahead
  if text == "this" then take .this
  else if ["super", "true", "false", "null", "undefined"].contains text then take .phrase
  else if text == "function" then functionExpression self
  else if text == "async" && c.next.ahead == "function" && !c.next.look.fresh then
    functionExpression self
  else if text == "class" then classExpression self
  else if text == "new" then newExpression self (memberStep self)
  else if text == "import" && c.next.ahead == "(" then take .symbol
  else if text == "import" && c.next.ahead == "." then
    let importWord ← take .symbol
    let dot ← take .symbol
    let part ← word .propertyName
    return node .phrase (importWord ++ dot ++ part)
  else take .identifier

/-- An expression in angle brackets that is no markup: a value seen as another type. -/
def typeAssertion (self : Rules) : Step Forest := do
  let generics ← typeArguments self
  let value ← self .unary
  return node .phrase (generics ++ value)

def operand (self : Rules) : Step Forest := do
  let c ← get
  match c.look.shape with
  | .number      => take .number
  | .string      => take .string
  | .backquote   => template self
  | .privateWord => take .privateName
  | .word        => wordOperand self
  | .mark        =>
    if c.ahead == "(" then
      if mayBeArrow c then orTry (arrowFunction self) (parenthesized self) else parenthesized self
    else if c.ahead == "[" then arrayLiteral self
    else if c.ahead == "\x7b" then objectLiteral self
    else if c.ahead == "/" || c.ahead == "/=" then regex
    else if c.ahead == "<" then
      if c.dialect == .markup then orTry (arrowFunction self) (self .markup)
      else orTry (arrowFunction self) (typeAssertion self)
    else if c.ahead == "@" then classExpression self
    else failHere
  | _            => failHere

/-- An operand with everything behind it. -/
def chained (self : Rules) : Step Forest := do
  let first ← operand self
  extend (trailer self true) first

/-- An operand with everything behind it but type arguments that stand alone. -/
def base (self : Rules) : Step Forest := do
  let first ← operand self
  extend (trailer self false) first

/-- What a decorator is made of: a name with members, perhaps called, or parentheses. -/
def reference (self : Rules) : Step Forest := do
  if (← ahead) == "new" then newExpression self (memberStep self)
  else
    let first ← if (← ahead) == "(" then parenthesized self else word .identifier
    extend (fun tree => do
      let c ← get
      if c.ahead == "." then memberStep self tree
      else if c.ahead == "(" then
        let args ← arguments self
        return some (node .call (withRole .function tree ++ withRole .arguments args))
      else if c.ahead == "<" then genericStep self true tree
      else return none) first

/-! ### Operators -/

/-- An operand can start here. -/
def atOperand (c : Cursor) : Bool :=
  match c.look.shape with
  | .word | .privateWord | .number | .string | .backquote => true
  | .mark => ["(", "[", "\x7b", "!", "~", "-", "+", "++", "--", "<", "/", "/=", "@"].contains c.look.text
  | _     => false

def unary (self : Rules) : Step Forest := do
  htmlComments
  let c ← get
  let text := c.ahead
  if ["!", "~", "-", "+"].contains text ||
      (["typeof", "void", "delete"].contains text && atOperand c.next && c.next.ahead != "in") then
    let sign ← take .symbol
    let value ← self .unary
    return node .unary (withRole .operator sign ++ withRole .argument value)
  else if text == "++" || text == "--" then
    let sign ← take .symbol
    let value ← self .unary
    return node .update (withRole .operator sign ++ withRole .argument value)
  else if text == "await" && atOperand c.next then
    let awaitWord ← take .symbol
    let value ← self .unary
    return node .phrase (awaitWord ++ value)
  else
    let value ← chained self
    let c ← get
    if (c.ahead == "++" || c.ahead == "--") && !c.look.fresh then
      let sign ← take .symbol
      return node .update (withRole .argument value ++ withRole .operator sign)
    else return value

def power (self : Rules) : Step Forest := do
  let base ← unary self
  let rest ← repeatWhile do
    if (← aheadOperator) == "**" then
      let mark ← take .symbol
      let value ← unary self
      return some (withRole .operator mark ++ withRole .right value)
    else return none
  return if rest.isEmpty then base else node .binary (withRole .left base ++ rest)

/-- Operands joined by operators of one strength, from the left. -/
def joined (marks : List String) (next : Step Forest) : Step Forest := do
  let first ← next
  extend (fun left => do
    if marks.contains (← aheadOperator) then
      let mark ← take .symbol
      let right ← next
      return some (node .binary (withRole .left left ++ withRole .operator mark ++
        withRole .right right))
    else return none) first

/-- Comparisons, and values seen as another type. -/
def relation (self : Rules) (next : Step Forest) : Step Forest := do
  let first ← next
  extend (fun left => do
    let c ← get
    let mark := c.aheadOperator
    if ["<", ">", "<=", ">=", "instanceof", "in"].contains mark then
      let sign ← take .symbol
      let right ← next
      return some (node .binary (withRole .left left ++ withRole .operator sign ++
        withRole .right right))
    else if (mark == "as" || mark == "satisfies") && !c.look.fresh then
      let sign ← take .symbol
      let type ← if (← ahead) == "const" then take .symbol else self .type
      return some (node .phrase (left ++ sign ++ type))
    else return none) first

def coalesced (self : Rules) : Step Forest :=
  let product := joined ["*", "/", "%"] (power self)
  let sum := joined ["+", "-"] product
  let shift := joined ["<<", ">>", ">>>"] sum
  let order := relation self shift
  let equality := joined ["==", "!=", "===", "!=="] order
  let conjunct := joined ["&"] equality
  let exclusive := joined ["^"] conjunct
  let disjunct := joined ["|"] exclusive
  let both := joined ["&&"] disjunct
  let either := joined ["||"] both
  joined ["??"] either

/-! ### Conditions and assignments -/

/-- What follows the question mark of a condition. -/
def conditionTail (self : Rules) : Step Forest := do
  let yes ← within (self .value)
  let colon ← symbol ":"
  let no ← self .value
  return yes ++ colon ++ no

def conditional (self : Rules) : Step Forest := do
  let test ← coalesced self
  if (← aheadOperator) == "?" then
    let question ← take .symbol
    let typed := (← get).typedArrows
    let tail ← orTry (conditionTail self) (do
      modify fun c => { c with typedArrows := false }
      let yes ← within (self .value)
      modify fun c => { c with typedArrows := typed }
      let colon ← symbol ":"
      let no ← self .value
      return yes ++ colon ++ no)
    return node .phrase (test ++ question ++ tail)
  else return test

def assignmentMarks : List String :=
  ["+=", "-=", "*=", "/=", "%=", "^=", "&=", "|=", ">>=", ">>>=", "<<=", "**=", "&&=", "||=", "??="]

def yieldExpression (self : Rules) : Step Forest := do
  let yieldWord ← take .symbol
  let star ← symbol? "*"
  let c ← get
  let value ← if atOperand c && !c.look.fresh then self .value
    else if star.isEmpty then pure [] else failHere
  return node .phrase (yieldWord ++ star ++ value)

/-- One expression. -/
def value (self : Rules) : Step Forest := do
  htmlComments
  let c ← get
  if atShortArrow c then shortArrow self
  else if c.ahead == "yield" then yieldExpression self
  else if c.ahead == "async" && mayBeArrow c.next && !c.next.look.fresh then
    orTry (arrowFunction self) (assigned self)
  else if c.ahead == "async" && c.next.ahead == "<" && !c.next.look.fresh then
    orTry (arrowFunction self) (assigned self)
  else assigned self
where
  /-- A condition, or an assignment to a target. -/
  assigned (self : Rules) : Step Forest := do
    let left ← conditional self
    let mark ← aheadOperator
    if mark == "=" then
      if !isTarget left then failHere
      let equals ← take .symbol
      let right ← self .value
      return node .assignment
        (withRole .left (left.map toPattern) ++ equals ++ withRole .right right)
    else if assignmentMarks.contains mark then
      if !isTarget left then failHere
      let sign ← take .symbol
      let right ← self .value
      return node .augmentedAssignment
        (withRole .left left ++ withRole .operator sign ++ withRole .right right)
    else return left

/-- Expressions between commas; several are one phrase. -/
def sequence (self : Rules) : Step Forest := do
  let first ← self .value
  let rest ← repeatWhile do
    if (← aheadOperator) == "," then
      let comma ← take .symbol
      let value ← self .value
      return some (comma ++ value)
    else return none
  return nodeUnless rest.isEmpty .phrase (first ++ rest)

end ArchReview.Script

import ArchReview.Grammar.PythonExpression

/-!
# Python statements

Simple statements end with their line or at a semicolon. A compound statement's suite is either
the rest of its line or the lines indented deeper than the block around it.
-/

namespace ArchReview.Python

open Grammar

/-! ### Imports -/

def dottedName : Step Forest := do
  let first ← name
  let rest ← repeatWhile do
    if (← ahead) == "." then
      let dot ← take .symbol
      let word ← name
      return some (dot ++ word)
    else return none
  return node .dottedName (first ++ rest)

/-- An imported name, perhaps under another one. -/
def importedName : Step Forest := do
  let imported ← dottedName
  if (← ahead) == "as" then
    let word ← take .symbol
    let newName ← name
    return node .aliasedImport (withRole .name imported ++ word ++ withRole .newName newName)
  else return imported

def importStatement : Step Forest := do
  let word ← symbol "import"
  let names ← commaList (withRole .name <$> importedName) fun c => !c.isName
  if names.isEmpty then failHere
  return node .importStatement (word ++ names)

/-- The module of a `from` import: dots, a dotted name, or both. -/
def moduleName : Step Forest := do
  let dots ← repeatWhile do
    if (← ahead) == "." || (← ahead) == "..." then return some (← take .symbol) else return none
  if dots.isEmpty then dottedName
  else
    let rest ← if (← ahead) == "import" then pure [] else dottedName
    return node .phrase (dots ++ rest)

def importFrom : Step Forest := do
  let word ← symbol "from"
  let module ← moduleName
  let importWord ← symbol "import"
  let names ←
    if (← ahead) == "*" then take .wildcardImport
    else if (← ahead) == "(" then within do
      let opening ← take .symbol
      let names ← commaList (withRole .name <$> importedName) (closes ")")
      let closing ← symbol ")"
      pure (opening ++ names ++ closing)
    else commaList (withRole .name <$> importedName) fun c => !c.isName
  if names.isEmpty then failHere
  let isFuture := (main? module).any fun t => t.kind == .dottedName && t.text == "__future__"
  return node (if isFuture then .futureImport else .importFrom)
    (word ++ withRole .moduleName module ++ importWord ++ names)

/-! ### Assignments and expressions -/

def augmentedMarks : List String :=
  ["+=", "-=", "*=", "/=", "@=", "//=", "%=", "**=", ">>=", "<<=", "&=", "^=", "|="]

/-- The mark ahead makes an assignment of what stands before it. -/
def isAssignmentMark (mark : String) : Bool :=
  mark == "=" || mark == ":" || augmentedMarks.contains mark

/-- What follows the targets of an assignment: a type, values or both. The values may be the targets
of another assignment. -/
def assignedTo (self : Rules) : Nat → Forest → Step Forest
  | 0, _           => failHere
  | n + 1, targets => do
    let next ← ahead
    if !isAssignmentMark next then return targets
    if !forestIsTarget targets then failHere
    if augmentedMarks.contains next then
      let mark ← take .symbol
      let values ← yieldOrExpressions self
      let right ← assignedTo self n values
      return node .phrase (targets ++ mark ++ right)
    let type ←
      if next == ":" then do
        let colon ← take .symbol
        let type ← self .expression
        pure (colon ++ withRole .type type)
      else pure []
    let value ←
      if (← ahead) == "=" then do
        let equals ← take .symbol
        let values ← yieldOrExpressions self
        let right ← assignedTo self n values
        pure (equals ++ withRole .right right)
      else pure []
    return node .assignment (withRole .left targets ++ type ++ value)

def expressionStatement (self : Rules) : Step Forest := do
  if (← ahead) == "yield" then
    let value ← yieldOrExpressions self
    return node .expressionStatement value
  if !(← get).atOperand then failHere
  let list ← starredList self
  if isAssignmentMark (← ahead) then
    let whole ← assignedTo self (← remaining) (nodeUnless (!hasComma list) .tuple list)
    return node .expressionStatement whole
  else return node .expressionStatement list

/-! ### Other simple statements -/

def nameList : Step Forest := do
  let names ← commaList name fun _ => false
  return names

def raiseStatement (self : Rules) : Step Forest := do
  let word ← symbol "raise"
  let value ← if (← get).atOperand then expressions self else pure []
  let cause ←
    if (← ahead) == "from" then do
      let fromWord ← take .symbol
      let cause ← self .expression
      pure (fromWord ++ cause)
    else pure []
  return node .raiseStatement (word ++ value ++ cause)

def typeParameters (self : Rules) : Step Forest := do
  if (← ahead) == "[" then within do
    let opening ← take .symbol
    let items ← commaList (do
      let item ← starred self
      let bound ←
        if (← ahead) == ":" then do
          let colon ← take .symbol
          let value ← self .expression
          pure (colon ++ value)
        else pure []
      let default ←
        if (← ahead) == "=" then do
          let equals ← take .symbol
          let value ← self .expression
          pure (equals ++ value)
        else pure []
      return item ++ bound ++ default) (closes "]")
    let closing ← symbol "]"
    return node .phrase (opening ++ items ++ closing)
  else return []

/-- A name for a type: the word, a name, and what it stands for. -/
def typeAlias (self : Rules) : Step Forest := do
  let word ← symbol "type"
  let newName ← name
  let parameters ← typeParameters self
  let equals ← symbol "="
  let value ← self .expression
  return node .phrase (word ++ newName ++ parameters ++ equals ++ value)

/-- Expressions between commas, with none behind the last. -/
def plainList (self : Rules) : Step Forest := do
  let first ← self .expression
  let rest ← repeatWhile do
    if (← ahead) == "," then
      let comma ← take .symbol
      let value ← self .expression
      return some (comma ++ value)
    else return none
  return first ++ rest

/-- `print` is a word of the language where an operand follows it that could not carry on an
expression. -/
def atPrint (c : Cursor) : Bool :=
  c.ahead == "print" &&
    (c.next.ahead == ">>" ||
      (c.next.atOperand && !(["(", "[", "-", "+", "*", "**", "yield"].contains c.next.ahead) &&
        !(c.next.ahead == "not" && c.next.next.ahead == "in")))

/-- Values to print, perhaps behind the file that they go to. -/
def printStatement (self : Rules) : Step Forest := do
  let word ← take .symbol
  if (← ahead) == ">>" then
    let mark ← take .symbol
    let file ← self .expression
    let comma ← symbol? ","
    let values ← if comma.isEmpty then pure [] else commaList (self .expression) operandsEnd
    return node .phrase (word ++ node .phrase (mark ++ file) ++ comma ++ values)
  else
    let values ← commaList (self .expression) operandsEnd
    return node .phrase (word ++ values)

/-- `exec` is a word of the language where a name or a string follows it. -/
def atExec (c : Cursor) : Bool :=
  c.ahead == "exec" && (c.next.isName || (!c.next.halts && c.next.look.shape == .quote))

/-- Code to execute, perhaps with the names that it may use. -/
def execStatement (self : Rules) : Step Forest := do
  let word ← take .symbol
  let code ← if (← get).isName then name else string self
  let scope ←
    if (← ahead) == "in" then do
      let inWord ← take .symbol
      let values ← plainList self
      pure (inWord ++ values)
    else pure []
  return node .phrase (word ++ code ++ scope)

def simpleStatement (self : Rules) : Step Forest := do
  let next ← ahead
  if next == "import" then importStatement
  else if next == "from" then importFrom
  else if next == "pass" then node .passStatement <$> take .symbol
  else if next == "break" || next == "continue" then node .phrase <$> take .symbol
  else if next == "return" then
    let word ← take .symbol
    let value ← if (← get).atOperand then expressions self else pure []
    return node .phrase (word ++ value)
  else if next == "raise" then raiseStatement self
  else if next == "global" then
    let word ← take .symbol
    let names ← nameList
    return node .globalStatement (word ++ names)
  else if next == "nonlocal" then
    let word ← take .symbol
    let names ← nameList
    return node .phrase (word ++ names)
  else if next == "del" then
    let word ← take .symbol
    let value ← expressions self
    return node .phrase (word ++ value)
  else if next == "assert" then
    let word ← take .symbol
    let values ← plainList self
    return node .phrase (word ++ values)
  else if atPrint (← get) then printStatement self
  else if atExec (← get) then execStatement self
  else if next == "type" && (← get).next.isName then
    orTry (typeAlias self) (expressionStatement self)
  else expressionStatement self

def simpleLoop (self : Rules) : Nat → Step Forest
  | 0     => failHere
  | n + 1 => do
    let first ← simpleStatement self
    let semicolon ← symbol? ";"
    if (← get).halts then return first ++ semicolon
    else if semicolon.isEmpty then failHere
    else
      let rest ← simpleLoop self n
      return first ++ semicolon ++ rest

/-- The simple statements of one line. -/
def simpleStatements (self : Rules) : Step Forest := do
  simpleLoop self (← remaining)

/-! ### Suites -/

def Trivium.isContinuation (t : Trivium) : Bool := t.leaf.kind == .continuation

/-- Takes the trivia before the next token that belong to a block of the given indentation. A block
ends with a comment or a token, so continuations behind its last comment are left. -/
def takeTrivia (indent : Nat) : Step Forest := fun c =>
  let belongs := fun (t : Trivium) => t.isContinuation || !t.ownLine || indent ≤ t.indent
  let taken :=
    ((c.look.trivia.takeWhile belongs).reverse.dropWhile Trivium.isContinuation).reverse
  let forest := taken.map fun t => t.leaf
  let passed := Tree.forestSize forest
  .ok (forest, { c with
    chars := c.chars.drop passed
    line := c.line + (c.chars.take passed).count '\n'
    look := { c.look with trivia := c.look.trivia.drop taken.length } })

/-- The statements of the innermost block, up to its end. -/
def blockLoop (self : Rules) : Nat → Step Forest
  | 0     => failHere
  | n + 1 => do
    let c ← get
    if c.dedents then takeTrivia c.indent
    else
      modify Cursor.enter
      let first ← self .statement
      let rest ← blockLoop self n
      return first ++ rest

/-- Reads lines indented deeper than the block around them; nothing if there are none. -/
def indented (p : Step Forest) : Step Forest := do
  let c ← get
  if c.indent < c.look.indent then
    modify fun c => { c with indents := c.look.indent :: c.indents }
    let inside ← p
    modify fun c => { c with indents := c.indents.drop 1 }
    return node .block inside
  else return []

/-- What follows the colon of a compound statement. -/
def suite (self : Rules) : Step Forest := do
  let c ← get
  if c.look.fresh then indented do blockLoop self (← remaining)
  else
    modify Cursor.enter
    let inside ← simpleStatements self
    return node .block inside

def colonSuite (self : Rules) : Step Forest := do
  let colon ← symbol ":"
  let body ← self .suite
  return colon ++ withRole .body body

/-! ### Clauses -/

/-- The next clause of the statement being read has this word. -/
def atClauseWord (word : String) (c : Cursor) : Bool := !c.dedents && c.ahead == word

/-- Reads a header, where line breaks do not count. -/
def header (p : Step Forest) : Step Forest := do
  modify fun c => { c with bound := false }
  p

def elseClause? (self : Rules) : Step Forest := header do
  if atClauseWord "else" (← get) then
    let word ← take .symbol
    let body ← colonSuite self
    return withRole .alternative (node .phrase (word ++ body))
  else return []

def elifClauses (self : Rules) : Step Forest := repeatWhile <| header? do
  let word ← take .symbol
  let test ← self .expression
  let body ← colonSuite self
  return withRole .alternative (node .elifClause (word ++ withRole .condition test ++ body))
where
  header? (p : Step Forest) : Step (Option Forest) := do
    modify fun c => { c with bound := false }
    if atClauseWord "elif" (← get) then return some (← p) else return none

def ifStatement (self : Rules) : Step Forest := header do
  let word ← symbol "if"
  let test ← self .expression
  let body ← colonSuite self
  let elifs ← elifClauses self
  let other ← elseClause? self
  return node .ifStatement (word ++ withRole .condition test ++ body ++ elifs ++ other)

def whileStatement (self : Rules) : Step Forest := header do
  let word ← symbol "while"
  let test ← self .expression
  let body ← colonSuite self
  let other ← elseClause? self
  return node .whileStatement (word ++ test ++ body ++ other)

def forStatement (self : Rules) (async : Forest) : Step Forest := header do
  let word ← symbol "for"
  let targets ← commaList (do
    let star ← symbol? "*"
    let target ← self .operand
    return nodeUnless star.isEmpty .listSplat (star ++ target)) operandsEnd
  if !areTargets targets then failHere
  let inWord ← symbol "in"
  let values ← expressions self
  let body ← colonSuite self
  let other ← elseClause? self
  return node .forStatement (async ++ word ++ targets ++ inWord ++ values ++ body ++ other)

def withStatement (self : Rules) (async : Forest) : Step Forest := header do
  let word ← symbol "with"
  let items ← expressions self
  let body ← colonSuite self
  return node .phrase (async ++ word ++ items ++ body)

def exceptClauses (self : Rules) : Step Forest := repeatWhile do
  modify fun c => { c with bound := false }
  if atClauseWord "except" (← get) then
    let word ← take .symbol
    let star ← symbol? "*"
    let value ← if (← get).atOperand then expressions self else pure []
    let body ← colonSuite self
    return some (node .phrase (word ++ star ++ value ++ body))
  else return none

def finallyClause? (self : Rules) : Step Forest := header do
  if atClauseWord "finally" (← get) then
    let word ← take .symbol
    let body ← colonSuite self
    return node .phrase (word ++ body)
  else return []

def tryStatement (self : Rules) : Step Forest := header do
  let word ← symbol "try"
  let body ← colonSuite self
  let handlers ← exceptClauses self
  let other ← elseClause? self
  let last ← finallyClause? self
  if handlers.isEmpty && last.isEmpty then failHere
  return node .phrase (word ++ body ++ handlers ++ other ++ last)

/-! ### Definitions -/

def functionDefinition (self : Rules) (async : Forest) : Step Forest := header do
  let word ← symbol "def"
  let title ← name
  let generics ← typeParameters self
  let opening ← symbol "("
  let items ← commaList (parameter self true) (closes ")")
  let closing ← symbol ")"
  let parameters := node .phrase (opening ++ items ++ closing)
  let result ←
    if (← ahead) == "->" then do
      let arrow ← take .symbol
      let type ← self .expression
      pure (arrow ++ type)
    else pure []
  let body ← colonSuite self
  return node .functionDefinition
    (async ++ word ++ withRole .name title ++ generics ++ withRole .parameters parameters ++
      result ++ body)

def classDefinition (self : Rules) : Step Forest := header do
  let word ← symbol "class"
  let title ← name
  let generics ← typeParameters self
  let bases ← if (← ahead) == "(" then arguments self else pure []
  let body ← colonSuite self
  return node .classDefinition
    (word ++ withRole .name title ++ generics ++ withRole .superclasses bases ++ body)

/-- A definition, with the word that makes it asynchronous. -/
def definition (self : Rules) : Step Forest := do
  let next ← ahead
  if next == "class" then classDefinition self
  else
    let async ← symbol? "async"
    functionDefinition self async

def decorators (self : Rules) : Step Forest := repeatWhile do
  modify Cursor.enter
  if (← ahead) == "@" then
    let mark ← take .symbol
    let value ← self .expression
    if !(← get).look.fresh then failHere
    return some (node .decorator (mark ++ value))
  else return none

def decorated (self : Rules) : Step Forest := do
  let marks ← decorators self
  let subject ← definition self
  return node .decorated (marks ++ withRole .definition subject)

/-! ### Pattern matching -/

/-- The patterns inside brackets. -/
def patternList (self : Rules) (closing : String) : Step Forest :=
  commaList (self .casePattern) (closes closing)

def patternGroup (self : Rules) (closing : String) : Step Forest := within do
  let first ← take .symbol
  let items ← patternList self closing
  let last ← symbol closing
  return node .phrase (first ++ items ++ last)

/-- A key and the pattern of its value, or the rest of a mapping. -/
def mappingEntry (self : Rules) : Step Forest := do
  let key ← self .casePattern
  if (← ahead) == ":" then
    let colon ← take .symbol
    let value ← self .casePattern
    return key ++ colon ++ value
  else return key

def mappingPattern (self : Rules) : Step Forest := within do
  let first ← take .symbol
  let items ← commaList (mappingEntry self) (closes "\x7d")
  let last ← symbol "\x7d"
  return node .phrase (first ++ items ++ last)

/-- A number, perhaps signed, perhaps complex. -/
def numberPattern : Step Forest := do
  let sign ← symbol? "-"
  if (← get).look.shape != .number then failHere
  let first ← take .number
  if (← ahead) == "+" || (← ahead) == "-" then
    let mark ← take .symbol
    if (← get).look.shape != .number then failHere
    let second ← take .number
    return node .phrase (sign ++ first ++ mark ++ second)
  else return node .phrase (sign ++ first)

/-- A capture, a dotted value, a class with its arguments, or a keyword argument of one. -/
def namePattern (self : Rules) : Step Forest := do
  let c ← get
  if c.ahead == "_" && c.next.ahead != "." && c.next.ahead != "(" then take .symbol
  else
    let title ← dottedName
    if (← ahead) == "(" then
      let inside ← patternGroup self ")"
      return node .phrase (title ++ inside)
    else if (← ahead) == "=" then
      let equals ← take .symbol
      let value ← self .casePattern
      return node .phrase (title ++ equals ++ value)
    else return title

def closedPattern (self : Rules) : Step Forest := do
  let c ← get
  if c.halts then failHere
  match c.look.shape with
  | .quote  => strings self
  | .number => numberPattern
  | .word   =>
    if c.isName then namePattern self
    else if ["None", "True", "False"].contains c.look.text then take .phrase
    else failHere
  | .mark   =>
    if c.look.text == "-" then numberPattern
    else if c.look.text == "(" then patternGroup self ")"
    else if c.look.text == "[" then patternGroup self "]"
    else if c.look.text == "\x7b" then mappingPattern self
    else if c.look.text == "*" || c.look.text == "**" then
      let star ← take .symbol
      let word ← if (← ahead) == "_" then take .symbol else name
      return node .phrase (star ++ word)
    else failHere
  | _       => failHere

def casePattern (self : Rules) : Step Forest := do
  let choice ← joined .phrase ["|"] (closedPattern self)
  if (← ahead) == "as" then
    let word ← take .symbol
    let capture ← name
    return node .phrase (choice ++ word ++ capture)
  else return node .phrase choice

def caseClause (self : Rules) : Step Forest := header do
  let word ← symbol "case"
  let patterns ← commaList (self .casePattern) fun c => c.ahead == ":" || c.ahead == "if"
  if patterns.isEmpty then failHere
  let guard ←
    if (← ahead) == "if" then do
      let ifWord ← take .symbol
      let test ← self .expression
      pure (node .phrase (ifWord ++ test))
    else pure []
  let body ← colonSuite self
  return node .caseClause (word ++ patterns ++ guard ++ body)

def caseLoop (self : Rules) : Nat → Step Forest
  | 0     => failHere
  | n + 1 => do
    let c ← get
    if c.dedents then takeTrivia c.indent
    else
      modify Cursor.enter
      let first ← caseClause self
      let rest ← caseLoop self n
      return first ++ rest

/-- The head of a `match` statement, up to its indented clauses. -/
def matchHead (self : Rules) : Step Forest := do
  modify fun c => { c with bound := false }
  let word ← symbol "match"
  if !(← get).atOperand then failHere
  let subjects ← commaList (withRole .subject <$> starred self) operandsEnd
  let colon ← symbol ":"
  let c ← get
  -- without clauses the next line is not indented deeper
  if c.look.fresh && (c.look.indent ≤ c.indent || c.look.text == "case") then
    return word ++ subjects ++ colon
  else failHere

/-- The head of a `match` statement if this is one: `match` may be a name as well. -/
def matchHead? (self : Rules) : Step (Option Forest) := do
  if (← ahead) == "match" then orTry (some <$> matchHead self) (return none)
  else return none

def matchStatement (self : Rules) (head : Forest) : Step Forest := do
  let body ← indented do caseLoop self (← remaining)
  return node .matchStatement (head ++ withRole .body body)

/-! ### Statements -/

def statement (self : Rules) : Step Forest := do
  let c ← get
  let next := c.ahead
  if next == "if" then ifStatement self
  else if next == "for" then forStatement self []
  else if next == "while" then whileStatement self
  else if next == "try" then tryStatement self
  else if next == "with" then withStatement self []
  else if next == "def" then functionDefinition self []
  else if next == "class" then classDefinition self
  else if next == "@" then decorated self
  else if next == "async" && ["def", "for", "with"].contains c.next.ahead then
    if c.next.ahead == "def" then definition self
    else
      let async ← take .symbol
      if (← ahead) == "for" then forStatement self async else withStatement self async
  else match ← matchHead? self with
    | some head => matchStatement self head
    | none      => simpleStatements self

end ArchReview.Python

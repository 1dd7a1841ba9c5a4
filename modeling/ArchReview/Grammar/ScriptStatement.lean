import ArchReview.Grammar.ScriptMarkup

/-!
# Statements in scripts

Declarations, control flow, imports and exports. Words such as `type` or `namespace` start a
declaration only where a name follows them on the same line.
-/

namespace ArchReview.Script

open Grammar

/-! ### Blocks -/

def statementList (self : Rules) : Step Forest := repeatWhile do
  htmlComments
  let c ← get
  if c.ahead == "\x7d" || c.look.shape == .finish then return none
  else return some (← self .statement)

def block (self : Rules) : Step Forest := lineBound do
  let opening ← symbol "\x7b"
  let inside ← statementList self
  let closing ← symbol "\x7d"
  return node .block (opening ++ inside ++ closing)

/-! ### Variables -/

/-- Reads a declared name with its type and its value. -/
def declarator (self : Rules) : Step Forest := do
  let target ← self .pattern
  let definite ← symbol? "!"
  let type ← typeMark? self
  let value ←
    if (← aheadOperator) == "=" then do
      let equals ← take .symbol
      let value ← self .value
      pure (equals ++ withRole .value value)
    else pure []
  return node .declarator (withRole .name target ++ definite ++ type ++ value)

def declarators (self : Rules) : Step Forest := do
  let first ← declarator self
  let rest ← repeatWhile do
    if (← aheadOperator) == "," then
      let comma ← take .symbol
      let next ← declarator self
      return some (comma ++ next)
    else return none
  return first ++ rest

def declarationKind (keyword : String) : Kind :=
  if keyword == "var" then .variableDeclaration else .lexicalDeclaration

def variableDeclaration (self : Rules) : Step Forest := do
  let kind := declarationKind (← ahead)
  let keyword ← take .symbol
  let items ← declarators self
  let mark ← semicolon
  return node kind (keyword ++ items ++ mark)

/-- A declared name follows. -/
def atTarget (c : Cursor) : Bool :=
  c.look.shape == .word || c.ahead == "[" || c.ahead == "\x7b"

/-! ### Functions -/

/-- A function with a body, or only its signature. -/
def functionDeclaration (self : Rules) : Step Forest := do
  let async ← symbol? "async"
  let functionWord ← symbol "function"
  let star ← symbol? "*"
  let title ← word .identifier
  let s ← self .signature
  if atBlock (← get) then
    let body ← self .block
    return node (if star.isEmpty then .functionDeclaration else .generatorDeclaration)
      (async ++ functionWord ++ star ++ withRole .name title ++ s ++ withRole .body body)
  else
    let mark ← semicolon
    return node .phrase (async ++ functionWord ++ star ++ withRole .name title ++ s ++ mark)

def atFunction (c : Cursor) : Bool :=
  c.ahead == "function" ||
    (c.ahead == "async" && c.next.ahead == "function" && !c.next.look.fresh)

/-! ### Classes -/

/-- A method, a signature, a field or a static block. -/
def classMember (self : Rules) : Step Forest := do
  let marks ← decorators self
  let c ← get
  if c.ahead == "static" && c.next.ahead == "\x7b" then
    let staticWord ← take .symbol
    let body ← self .block
    return marks ++ node .phrase (staticWord ++ body)
  let modifiers ← memberModifiers
  let star ← symbol? "*"
  let modifiers := modifiers ++ star
  if atIndexSignature (← get) then
    let inside ← indexSignature self
    let mark ← memberEnd
    return marks ++ node .phrase (modifiers ++ inside) ++ mark
  let title ← propertyName self
  let question ← if (← ahead) == "?" || (← ahead) == "!" then take .symbol else pure []
  let head := modifiers ++ withRole .name title ++ question
  let c ← get
  if c.ahead == "(" || c.ahead == "<" then
    let s ← self .signature
    if atBlock (← get) then
      let body ← self .block
      let mark ← symbol? ";"
      return marks ++ node .method (head ++ s ++ withRole .body body) ++ mark
    else
      let isAbstract := modifiers.any fun t => t.kind == .symbol && t.text == "abstract"
      let mark ← memberEnd
      return marks ++
        node (if isAbstract then .abstractMethod else .methodSignature) (head ++ s) ++ mark
  let type ← typeMark? self
  let value ←
    if (← aheadOperator) == "=" then do
      let equals ← take .symbol
      let value ← self .value
      pure (equals ++ withRole .value value)
    else pure []
  let mark ← memberEnd
  return node .field (marks ++ head ++ type ++ value) ++ mark

def classBody (self : Rules) : Step Forest := lineBound do
  let opening ← symbol "\x7b"
  let items ← repeatWhile do
    let c ← get
    if c.ahead == "\x7d" then return none
    else if c.ahead == ";" then return some (← take .symbol)
    else return some (← classMember self)
  let closing ← symbol "\x7d"
  return node .phrase (opening ++ items ++ closing)

/-- A class with a name; the decorators before it belong to it. -/
def classDeclaration (self : Rules) (marks : Forest) : Step Forest := do
  let abstractWord ← symbol? "abstract"
  let classWord ← symbol "class"
  let tail ← classTail self
  let named := tail.any fun t => t.role == .name
  let kind := if !abstractWord.isEmpty then .abstractClass
    else if named then .classDeclaration else .classExpression
  return node kind (marks ++ abstractWord ++ classWord ++ tail)

def atClass (c : Cursor) : Bool :=
  c.ahead == "class" || (c.ahead == "abstract" && c.next.ahead == "class")

/-! ### Types and namespaces -/

def interfaceDeclaration (self : Rules) : Step Forest := do
  let interfaceWord ← take .symbol
  let title ← word .typeIdentifier
  let generics ← typeParameters? self
  let bases ←
    if (← ahead) == "extends" then do
      let extendsWord ← take .symbol
      let types ← commaList (self .type) (closes "\x7b")
      pure (node .extendsTypes (extendsWord ++ types))
    else pure []
  let body ← objectType self
  return node .interfaceDeclaration
    (interfaceWord ++ withRole .name title ++ generics ++ bases ++ withRole .body body)

def typeAlias (self : Rules) : Step Forest := do
  let typeWord ← take .symbol
  let title ← word .typeIdentifier
  let generics ← typeParameters? self
  let equals ← symbol "="
  let type ← self .type
  let mark ← semicolon
  return node .phrase
    (typeWord ++ withRole .name title ++ generics ++ equals ++ withRole .value type ++ mark)

def enumMember (self : Rules) : Step Forest := do
  let title ← propertyName self
  if (← ahead) == "=" then
    let equals ← take .symbol
    let value ← self .value
    return node .phrase (withRole .name title ++ equals ++ withRole .value value)
  else return withRole .name title

def enumDeclaration (self : Rules) : Step Forest := do
  let constWord ← symbol? "const"
  let enumWord ← symbol "enum"
  let title ← word .identifier
  let body ← within do
    let opening ← symbol "\x7b"
    let items ← commaList (enumMember self) (closes "\x7d")
    let closing ← symbol "\x7d"
    pure (node .phrase (opening ++ items ++ closing))
  return node .enumDeclaration
    (constWord ++ enumWord ++ withRole .name title ++ withRole .body body)

/-- A namespace, or a module that is declared. -/
def namespaceDeclaration (self : Rules) : Step Forest := do
  let keyword ← take .symbol
  let title ← if (← get).look.shape == .string then take .string else qualifiedName .identifier
  let body ← if atBlock (← get) then self .block else semicolon
  return node .phrase (keyword ++ withRole .name title ++ withRole .body body)

/-- A word on the same line follows. -/
def nameFollows (c : Cursor) : Bool := c.next.look.shape == .word && !c.next.look.fresh

def atInterface (c : Cursor) : Bool := c.ahead == "interface" && c.next.look.shape == .word

def atTypeAlias (c : Cursor) : Bool :=
  c.ahead == "type" && nameFollows c && ["=", "<"].contains c.next.next.ahead

def atEnum (c : Cursor) : Bool :=
  (c.ahead == "enum" && c.next.look.shape == .word) || (c.ahead == "const" && c.next.ahead == "enum")

def atNamespace (c : Cursor) : Bool :=
  (c.ahead == "namespace" || c.ahead == "module") && !c.next.look.fresh &&
    (c.next.look.shape == .string ||
      (c.next.look.shape == .word && ["\x7b", "."].contains c.next.next.ahead))

def atAmbient (c : Cursor) : Bool :=
  c.ahead == "declare" && nameFollows c

/-! ### Imports and exports -/

def importSpecifier : Step Forest := do
  let c ← get
  let kindWord ←
    if (c.ahead == "type" || c.ahead == "typeof") &&
        (c.next.look.shape == .word || c.next.look.shape == .string) &&
        !(c.next.ahead == "as" && c.next.next.look.shape != .word) then take .symbol
    else pure []
  let title ← if (← get).look.shape == .string then take .string else word .identifier
  let newName ←
    if (← ahead) == "as" then do
      let asWord ← take .symbol
      let newName ← word .identifier
      pure (asWord ++ withRole .newName newName)
    else pure []
  return node .importSpecifier (kindWord ++ withRole .name title ++ newName)

def namedImports : Step Forest := within do
  let opening ← symbol "\x7b"
  let items ← commaList importSpecifier (closes "\x7d")
  let closing ← symbol "\x7d"
  return node .namedImports (opening ++ items ++ closing)

def namespaceImport : Step Forest := do
  let star ← symbol "*"
  let asWord ← symbol "as"
  let title ← word .identifier
  return node .namespaceImport (star ++ asWord ++ title)

/-- The part of an import before its source. -/
def importClause : Step Forest := do
  let c ← get
  if c.ahead == "*" then node .importClause <$> namespaceImport
  else if c.ahead == "\x7b" then node .importClause <$> namedImports
  else
    let first ← word .identifier
    if (← ahead) == "," then
      let comma ← take .symbol
      let rest ← if (← ahead) == "*" then namespaceImport else namedImports
      return node .importClause (first ++ comma ++ rest)
    else return node .importClause first

/-- Attributes behind the source of an import. -/
def importAttributes? (self : Rules) : Step Forest := do
  let c ← get
  if (c.ahead == "with" || c.ahead == "assert") && c.next.ahead == "\x7b" && !c.look.fresh then
    let keyword ← take .symbol
    let value ← objectLiteral self
    return node .phrase (keyword ++ value)
  else return []

/-- A source, with the word before it. -/
def fromSource : Step Forest := do
  let fromWord ← symbol "from"
  let source ← string
  return fromWord ++ withRole .source source

/-- `name = require(source)` or `name = Some.name`, without the word before it. -/
def importEquals (importWord : Forest) : Step Forest := do
  let title ← word .identifier
  let equals ← symbol "="
  if (← ahead) == "require" && (← get).next.ahead == "(" then
    let requireWord ← take .symbol
    let opening ← symbol "("
    let source ← string
    let closing ← symbol ")"
    let clause := node .importRequire
      (title ++ equals ++ requireWord ++ opening ++ withRole .source source ++ closing)
    let mark ← semicolon
    return node .importStatement (importWord ++ clause ++ mark)
  else
    let target ← qualifiedName .identifier
    let mark ← semicolon
    return node .phrase (importWord ++ title ++ equals ++ target ++ mark)

/-- A word between `import` and what it brings in. -/
def importKind : Step Forest := do
  let c ← get
  if (c.ahead == "type" || c.ahead == "typeof") && c.next.ahead != "from" &&
      (c.next.look.shape == .word || c.next.ahead == "\x7b" || c.next.ahead == "*") then take .symbol
  else if c.ahead == "type" && c.next.ahead == "from" && c.next.next.ahead == "from" then take .symbol
  else return []

def importStatement (self : Rules) : Step Forest := do
  let importWord ← symbol "import"
  if (← get).look.shape == .string then
    let source ← take .string
    let with? ← importAttributes? self
    let mark ← semicolon
    return node .importStatement (importWord ++ withRole .source source ++ with? ++ mark)
  let kindWord ← importKind
  let c ← get
  if c.look.shape == .word && c.next.ahead == "=" then importEquals (importWord ++ kindWord)
  else
    let clause ← importClause
    let source ← fromSource
    let with? ← importAttributes? self
    let mark ← semicolon
    return node .importStatement (importWord ++ kindWord ++ clause ++ source ++ with? ++ mark)

def exportName : Step Forest := do
  if (← get).look.shape == .string then take .string else word .identifier

def exportSpecifier : Step Forest := do
  let c ← get
  let kindWord ←
    if c.ahead == "type" && c.next.look.shape == .word &&
        !(c.next.ahead == "as" && c.next.next.look.shape != .word) then take .symbol
    else pure []
  let title ← exportName
  let newName ←
    if (← ahead) == "as" then do
      let asWord ← take .symbol
      let newName ← exportName
      pure (asWord ++ withRole .newName newName)
    else pure []
  return node .phrase (kindWord ++ withRole .name title ++ newName)

def exportClause : Step Forest := within do
  let opening ← symbol "\x7b"
  let items ← commaList exportSpecifier (closes "\x7d")
  let closing ← symbol "\x7d"
  return node .exportClause (opening ++ items ++ closing)

/-- A declaration that can be exported. -/
def atDeclaration (c : Cursor) : Bool :=
  atFunction c || atClass c || atInterface c || atTypeAlias c || atEnum c || atNamespace c ||
    atAmbient c || c.ahead == "@" || c.ahead == "import" ||
    (["let", "const", "var"].contains c.ahead && atTarget c.next)

/-- What follows `export default`: a declaration with a name, or an expression. -/
def exportDefault (self : Rules) : Step Forest := do
  let c ← get
  if atClass c then withRole .declaration <$> classDeclaration self []
  else if c.ahead == "@" then
    let marks ← decorators self
    withRole .declaration <$> classDeclaration self marks
  else if atInterface c || atEnum c then withRole .declaration <$> self .statement
  else
    let asFunction : Step Forest := do
      if !atFunction (← get) then failHere
      withRole .declaration <$> functionDeclaration self
    let asValue : Step Forest := do
      let value ← self .value
      let mark ← semicolon
      return withRole .value value ++ mark
    orTry asFunction asValue

def exportStatement (self : Rules) (marks : Forest) : Step Forest := do
  let exportWord ← symbol "export"
  let head := marks ++ exportWord
  let c ← get
  if c.ahead == "default" then
    let defaultWord ← take .symbol
    let tail ← exportDefault self
    return node .exportStatement (head ++ defaultWord ++ tail)
  else if c.ahead == "=" then
    let equals ← take .symbol
    let value ← self .sequence
    let mark ← semicolon
    return node .exportStatement (head ++ equals ++ value ++ mark)
  else if c.ahead == "as" && c.next.ahead == "namespace" then
    let asWord ← take .symbol
    let namespaceWord ← take .symbol
    let title ← word .identifier
    let mark ← semicolon
    return node .exportStatement (head ++ asWord ++ namespaceWord ++ title ++ mark)
  else if c.ahead == "*" || (c.ahead == "type" && c.next.ahead == "*") then
    let typeWord ← symbol? "type"
    let star ← take .symbol
    let names ←
      if (← ahead) == "as" then do
        let asWord ← take .symbol
        let title ← exportName
        pure (node .namespaceExport (star ++ asWord ++ title))
      else pure star
    let source ← fromSource
    let with? ← importAttributes? self
    let mark ← semicolon
    return node .exportStatement (head ++ typeWord ++ names ++ source ++ with? ++ mark)
  else if c.ahead == "\x7b" || (c.ahead == "type" && c.next.ahead == "\x7b") then
    let typeWord ← symbol? "type"
    let clause ← exportClause
    let source ← when? (closes "from") fromSource
    let with? ← importAttributes? self
    let mark ← semicolon
    return node .exportStatement (head ++ typeWord ++ clause ++ source ++ with? ++ mark)
  else if atDeclaration c then
    let item ← self .statement
    return node .exportStatement (head ++ withRole .declaration item)
  else failHere

/-! ### Control flow -/

def condition (self : Rules) : Step Forest := within do
  let opening ← symbol "("
  let value ← self .sequence
  let closing ← symbol ")"
  return node .parenthesized (opening ++ value ++ closing)

def ifStatement (self : Rules) : Step Forest := do
  let ifWord ← take .symbol
  let test ← condition self
  let yes ← self .statement
  let no ←
    if (← ahead) == "else" then do
      let elseWord ← take .symbol
      let body ← self .statement
      pure (node .elseClause (elseWord ++ body))
    else pure []
  return node .ifStatement
    (ifWord ++ withRole .condition test ++ yes ++ withRole .alternative no)

/-- The head of a loop over the members of a value. -/
def forInHead (self : Rules) : Step Forest := do
  let c ← get
  let keyword ←
    if ["let", "const", "var"].contains c.ahead && atTarget c.next then take .symbol else pure []
  let target ←
    if keyword.isEmpty then (fun f => f.map toPattern) <$> self .base
    else self .pattern
  let joint ← if (← ahead) == "of" || (← ahead) == "in" then take .symbol else failHere
  let value ← self .sequence
  let closing ← symbol ")"
  return keyword ++ withRole .left target ++ withRole .operator joint ++
    withRole .right value ++ closing

/-- The three parts of a counting loop. -/
def forHead (self : Rules) : Step Forest := do
  let c ← get
  let start ←
    if c.ahead == ";" then take .symbol
    else if ["let", "const", "var"].contains c.ahead && atTarget c.next then do
      let kind := declarationKind c.ahead
      let keyword ← take .symbol
      let items ← declarators self
      let mark ← symbol ";"
      pure (node kind (keyword ++ items ++ mark))
    else do
      let value ← self .sequence
      let mark ← symbol ";"
      pure (value ++ mark)
  let test ← if (← ahead) == ";" then pure [] else self .sequence
  let mark ← symbol ";"
  let step ← if (← ahead) == ")" then pure [] else self .sequence
  let closing ← symbol ")"
  return start ++ test ++ mark ++ step ++ closing

def forStatement (self : Rules) : Step Forest := do
  let forWord ← take .symbol
  let awaitWord ← symbol? "await"
  let (kind, head) ← within do
    let opening ← symbol "("
    let (kind, head) ← orTry (Prod.mk Kind.forIn <$> forInHead self)
      (Prod.mk Kind.forStatement <$> forHead self)
    pure (kind, opening ++ head)
  let body ← self .statement
  return node kind (forWord ++ awaitWord ++ head ++ withRole .body body)

def whileStatement (self : Rules) : Step Forest := do
  let whileWord ← take .symbol
  let test ← condition self
  let body ← self .statement
  return node .whileStatement (whileWord ++ test ++ body)

def withStatement (self : Rules) : Step Forest := do
  let withWord ← take .symbol
  let object ← condition self
  let body ← self .statement
  return node .phrase (withWord ++ object ++ body)

def doStatement (self : Rules) : Step Forest := do
  let doWord ← take .symbol
  let body ← self .statement
  let whileWord ← symbol "while"
  let test ← condition self
  let mark ← symbol? ";"
  return node .doStatement (doWord ++ body ++ whileWord ++ test ++ mark)

/-- The statements of one case. -/
def caseBody (self : Rules) : Step Forest := repeatWhile do
  htmlComments
  let c ← get
  if c.ahead == "\x7d" || (c.ahead == "case" && c.next.ahead != ":") ||
      (c.ahead == "default" && c.next.ahead == ":") then return none
  else return some (← self .statement)

def switchCase (self : Rules) : Step Forest := do
  if (← ahead) == "default" then
    let defaultWord ← take .symbol
    let colon ← symbol ":"
    let body ← caseBody self
    return node .phrase (defaultWord ++ colon ++ body)
  else
    let caseWord ← symbol "case"
    let value ← within (self .sequence)
    let colon ← symbol ":"
    let body ← caseBody self
    return node .switchCase (caseWord ++ withRole .value value ++ colon ++ body)

def switchStatement (self : Rules) : Step Forest := do
  let switchWord ← take .symbol
  let subject ← condition self
  let opening ← symbol "\x7b"
  let cases ← lineBound <| repeatWhile do
    if (← ahead) == "\x7d" then return none else return some (← switchCase self)
  let closing ← symbol "\x7d"
  let body := node .phrase (opening ++ cases ++ closing)
  return node .switchStatement (switchWord ++ withRole .value subject ++ withRole .body body)

def tryStatement (self : Rules) : Step Forest := do
  let tryWord ← take .symbol
  let body ← self .block
  let handler ←
    if (← ahead) == "catch" then do
      let catchWord ← take .symbol
      let parameter ← when? (closes "(") <| within do
        let opening ← take .symbol
        let target ← self .pattern
        let type ← typeMark? self
        let closing ← symbol ")"
        pure (opening ++ target ++ type ++ closing)
      let body ← self .block
      pure (node .phrase (catchWord ++ parameter ++ body))
    else pure []
  let last ←
    if (← ahead) == "finally" then do
      let finallyWord ← take .symbol
      let body ← self .block
      pure (node .phrase (finallyWord ++ body))
    else pure []
  if handler.isEmpty && last.isEmpty then failHere
  return node .phrase (tryWord ++ body ++ handler ++ last)

/-- A word and perhaps a value on its line. -/
def jump (self : Rules) : Step Forest := do
  let keyword ← take .symbol
  let c ← get
  let value ← if atOperand c && !c.look.fresh then self .sequence else pure []
  let mark ← semicolon
  return node .phrase (keyword ++ value ++ mark)

/-- `break` or `continue`, perhaps with a label. -/
def leave : Step Forest := do
  let keyword ← take .symbol
  let c ← get
  let label ← if c.look.shape == .word && !c.look.fresh then take .phrase else pure []
  let mark ← semicolon
  return node .phrase (keyword ++ label ++ mark)

def throwStatement (self : Rules) : Step Forest := do
  let keyword ← take .symbol
  let value ← self .sequence
  let mark ← semicolon
  return node .throwStatement (keyword ++ value ++ mark)

def expressionStatement (self : Rules) : Step Forest := do
  let value ← self .sequence
  let mark ← semicolon
  return node .phrase (value ++ mark)

/-! ### Statements -/

/-- A declaration behind `declare`, or a block of global ones. -/
def ambient (self : Rules) : Step Forest := do
  let declareWord ← take .symbol
  if (← ahead) == "global" && (← get).next.ahead == "\x7b" then
    let globalWord ← take .symbol
    let body ← self .block
    return node .phrase (declareWord ++ globalWord ++ body)
  else
    let item ← self .statement
    return node .phrase (declareWord ++ item)

/-- A declaration or statement with decorators before it. -/
def decoratedStatement (self : Rules) : Step Forest := do
  let marks ← decorators self
  if (← ahead) == "export" then exportStatement self marks else classDeclaration self marks

def keywordStatement (self : Rules) : Step Forest := do
  htmlComments
  let c ← get
  let text := c.ahead
  let calls := c.next.ahead == "("
  if text == "\x7b" then block self
  else if text == ";" then node .phrase <$> take .symbol
  else if text == "@" then decoratedStatement self
  else if atEnum c then enumDeclaration self
  else if ["let", "const", "var"].contains text && atTarget c.next then variableDeclaration self
  else if atFunction c then functionDeclaration self
  else if atClass c then classDeclaration self []
  else if text == "if" && calls then ifStatement self
  else if text == "for" && (calls || c.next.ahead == "await") then forStatement self
  else if text == "while" && calls then whileStatement self
  else if text == "with" && calls then withStatement self
  else if text == "do" then doStatement self
  else if text == "switch" && calls then switchStatement self
  else if text == "try" then tryStatement self
  else if text == "throw" then throwStatement self
  else if text == "return" then jump self
  else if text == "break" || text == "continue" then leave
  else if text == "debugger" then
    let keyword ← take .symbol
    let mark ← semicolon
    return node .phrase (keyword ++ mark)
  else if text == "import" && c.next.ahead != "(" && c.next.ahead != "." then importStatement self
  else if text == "export" then exportStatement self []
  else if atInterface c then interfaceDeclaration self
  else if atTypeAlias c then typeAlias self
  else if atNamespace c then namespaceDeclaration self
  else if atAmbient c then ambient self
  else if c.look.shape == .word && c.next.ahead == ":" then
    let label ← take .phrase
    let colon ← take .symbol
    let body ← self .statement
    return node .phrase (label ++ colon ++ body)
  else expressionStatement self

def statement (self : Rules) : Step Forest := lineBound (keywordStatement self)

end ArchReview.Script

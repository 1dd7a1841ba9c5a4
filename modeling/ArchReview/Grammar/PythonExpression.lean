import ArchReview.Grammar.PythonParse

/-!
# Python expressions

From strings and atoms up to conditional expressions. Every operator that takes two operands is
left-associative; a comparison is one node for the whole chain.
-/

namespace ArchReview.Python

open Grammar

/-! ### Strings -/

/-- How the inside of a string is read. -/
structure Quoting where
  raw : Bool
  format : Bool
  triple : Bool
  quote : Char

def Quoting.ofOpening (opening : String) : Quoting :=
  let letters := opening.toList.filter isQuoteLetter
  let quotes := opening.toList.filter fun c => !isQuoteLetter c
  { raw := letters.any fun c => c == 'r' || c == 'R'
    format := letters.any fun c => c == 'f' || c == 'F'
    triple := quotes.length == 3
    quote := quotes.headD '"' }

/-- What ended a stretch of content. -/
inductive Ending where
  | closed
  | interpolated
  deriving DecidableEq, Repr

/-- Content up to the closing quotes or an interpolation. `named` holds inside a named character,
`begun` after a character that a line break must not follow. -/
def spanContent (q : Quoting) (named begun : Bool) (content : List Char) :
    List Char → Option (List Char × Ending)
  | []      => none
  | c :: cs =>
    if named then spanContent q (c != '\x7d') begun (c :: content) cs
    else if c == '\\' then
      match cs with
      | []      => none
      | d :: ds =>
        if d == '\\' || d == '\'' || d == '"' || d == '\n' || d == '\r' then
          spanContent q false (begun && q.raw) (d :: c :: content) ds
        else if !q.raw && q.format && d == 'N' && ds.head? == some '\x7b' then
          spanContent q true false (d :: c :: content) ds
        else spanContent q false (begun && q.raw) (c :: content) (d :: ds)
    else if q.format && c == '\x7b' then
      match cs with
      | '\x7b' :: ds => spanContent q false false ('\x7b' :: c :: content) ds
      | _            => some (content.reverse, .interpolated)
    else if q.format && c == '\x7d' then
      match cs with
      | '\x7d' :: ds => spanContent q false false ('\x7d' :: c :: content) ds
      | _            => none
    else if c == q.quote then
      if !q.triple then some (content.reverse, .closed)
      else if [q.quote, q.quote].isPrefixOf cs then some (content.reverse, .closed)
      else spanContent q false true (c :: content) cs
    else if c == '\n' && !q.triple && begun then none
    else spanContent q false true (c :: content) cs

/-- Takes some characters as they are, blanks included; no leaf for no characters. -/
def takeChars (kind : Kind) (length : Nat) : Step Forest := fun c =>
  let text := c.chars.take length
  let forest := if text.isEmpty then [] else [.leaf kind .plain "" (String.ofList text) c.line]
  .ok (forest, c.moveTo (c.chars.drop length) (c.line + text.count '\n'))

/-- The inside of a string and its closing quotes. -/
def stringTail (self : Rules) (q : Quoting) : Nat → Step Forest
  | 0     => failHere
  | n + 1 => do
    let c ← get
    match spanContent q false false [] c.chars with
    | none => throw ⟨c.line, false⟩
    | some (content, .closed) =>
      let inside ← takeChars .phrase content.length
      let quotes ← takeChars .symbol (if q.triple then 3 else 1)
      return inside ++ quotes
    | some (content, .interpolated) =>
      let inside ← takeChars .phrase content.length
      let value ← self .interpolation
      let tail ← stringTail self q n
      return inside ++ value ++ tail

def string (self : Rules) : Step Forest := do
  let q := Quoting.ofOpening (← get).look.text
  let opening ← take .symbol
  let tail ← stringTail self q (← remaining)
  return node .string (opening ++ tail)

/-- A string, or several in a row as one phrase. -/
def strings (self : Rules) : Step Forest := do
  let first ← string self
  let more ← repeatWhile do
    let c ← get
    if !c.halts && c.look.shape == .quote then return some (← string self) else return none
  return nodeUnless more.isEmpty .phrase (first ++ more)

/-! ### Lists of expressions -/

/-- An expression, or one spread by stars. -/
def starred (self : Rules) : Step Forest := do
  if (← ahead) == "*" || (← ahead) == "**" then
    let star ← take .symbol
    let value ← self .expression
    return node .listSplat (star ++ value)
  else self .expression

def operandsEnd (c : Cursor) : Bool := !c.atOperand

/-- Expressions between commas. -/
def starredList (self : Rules) : Step Forest := commaList (starred self) operandsEnd

def hasComma (forest : Forest) : Bool :=
  forest.any fun t => t.kind == .symbol && t.text == ","

/-- One expression, or several between commas as one phrase. -/
def expressions (self : Rules) : Step Forest := do
  if !(← get).atOperand then failHere
  let list ← starredList self
  return nodeUnless (!hasComma list) .tuple list

def yieldTail (self : Rules) : Step Forest := do
  if (← ahead) == "from" then
    let word ← take .symbol
    let value ← self .expression
    return word ++ value
  else if (← get).atOperand then expressions self
  else return []

/-- A `yield`, or expressions. -/
def yieldOrExpressions (self : Rules) : Step Forest := do
  if (← ahead) == "yield" then
    let word ← take .symbol
    let tail ← yieldTail self
    return node .phrase (word ++ tail)
  else expressions self

/-! ### Targets -/

mutual

/-- What may stand on the left of an assignment. -/
def isTarget : Tree → Bool
  | .leaf kind ..           => kind == .identifier
  | .node kind _ first rest =>
    match kind with
    | .attribute | .subscript                      => true
    | .tuple | .list | .parenthesized | .listSplat =>
      (first.kind == .symbol || first.kind.isTrivia || isTarget first) && areTargets rest
    | _                                            => false

def areTargets : List Tree → Bool
  | []      => true
  | t :: ts => (t.kind == .symbol || t.kind.isTrivia || isTarget t) && areTargets ts

end

def forestIsTarget (forest : Forest) : Bool :=
  forest.all fun t => t.kind.isTrivia || isTarget t

/-! ### Interpolations -/

/-- Characters of a format up to a brace. -/
def formatText (cs : List Char) : List Char := cs.takeWhile fun c => c != '\x7b' && c != '\x7d'

def formatTail (self : Rules) : Nat → Step Forest
  | 0     => failHere
  | n + 1 => do
    let inside ← takeChars .phrase (formatText (← get).chars).length
    match (← get).chars with
    | '\x7b' :: _ =>
      let value ← self .interpolation
      let tail ← formatTail self n
      return inside ++ value ++ tail
    | '\x7d' :: _ => return inside
    | _           => failHere

/-- An embedded expression; the cursor stands before its opening brace. -/
def interpolation (self : Rules) : Step Forest := within do
  let opening ← takeChars .symbol 1
  let value ← yieldOrExpressions self
  let equals ← symbol? "="
  let conversion ←
    if (← ahead) == "!" then do
      let mark ← take .symbol
      let letter ← takeChars .phrase 1
      pure (mark ++ letter)
    else pure []
  let format ←
    if (← ahead) == ":" then do
      let mark ← take .symbol
      let inside ← formatTail self (← remaining)
      pure (mark ++ inside)
    else pure []
  let closing ← symbol "\x7d"
  return node .phrase (opening ++ value ++ equals ++ conversion ++ format ++ closing)

/-! ### Comprehensions -/

def forClause (self : Rules) : Step Forest := do
  let async ← symbol? "async"
  let word ← symbol "for"
  let targets ← commaList (do
    let star ← symbol? "*"
    let target ← self .operand
    return nodeUnless star.isEmpty .listSplat (star ++ target)) operandsEnd
  let inWord ← symbol "in"
  let values ← commaList (self .disjunction) operandsEnd
  return node .phrase (async ++ word ++ targets ++ inWord ++ values)

def ifClause (self : Rules) : Step Forest := do
  let word ← symbol "if"
  let test ← self .disjunction
  let named ←
    if (← ahead) == ":=" then do
      let mark ← take .symbol
      let value ← self .disjunction
      pure (mark ++ value)
    else pure []
  return node .phrase (word ++ test ++ named)

/-- A comprehension follows. -/
def atClause (c : Cursor) : Bool :=
  c.ahead == "for" || (c.ahead == "async" && c.next.ahead == "for")

def clauses (self : Rules) : Step Forest := repeatWhile do
  let c ← get
  if atClause c then return some (← forClause self)
  else if c.ahead == "if" then return some (← ifClause self)
  else return none

/-! ### Brackets -/

def closes (bracket : String) (c : Cursor) : Bool := c.ahead == bracket

/-- A keyword argument is next. -/
def atKeyword (c : Cursor) : Bool :=
  c.isName && c.next.look.shape == .mark && c.next.look.text == "="

def argument (self : Rules) : Step Forest := do
  if atKeyword (← get) then
    let word ← name
    let equals ← symbol "="
    let value ← self .expression
    return node .keywordArgument (withRole .name word ++ equals ++ withRole .value value)
  else starred self

/-- The arguments of a call, or a generator in their place. Without arguments there may be a comma. -/
def arguments (self : Rules) : Step Forest := within do
  let opening ← symbol "("
  if (← ahead) == ")" || (← ahead) == "," then
    let comma ← symbol? ","
    let closing ← symbol ")"
    return node .argumentList (opening ++ comma ++ closing)
  let first ← argument self
  if atClause (← get) then
    let loops ← clauses self
    let closing ← symbol ")"
    return node .generator (opening ++ first ++ loops ++ closing)
  let rest ←
    if (← ahead) == "," then do
      let comma ← take .symbol
      let more ← commaList (argument self) (closes ")")
      pure (comma ++ more)
    else pure []
  let closing ← symbol ")"
  return node .argumentList (opening ++ first ++ rest ++ closing)

/-- A parenthesised expression, a tuple or a generator. -/
def parenthesized (self : Rules) : Step Forest := within do
  let opening ← symbol "("
  if (← ahead) == ")" then
    let closing ← take .symbol
    return node .tuple (opening ++ closing)
  if (← ahead) == "yield" then
    let value ← yieldOrExpressions self
    let closing ← symbol ")"
    return node .parenthesized (opening ++ value ++ closing)
  let first ← starred self
  if atClause (← get) then
    let loops ← clauses self
    let closing ← symbol ")"
    return node .generator (opening ++ first ++ loops ++ closing)
  if (← ahead) == "," then
    let comma ← take .symbol
    let more ← starredList self
    let closing ← symbol ")"
    return node .tuple (opening ++ first ++ comma ++ more ++ closing)
  let closing ← symbol ")"
  return node .parenthesized (opening ++ first ++ closing)

/-- A list, or a comprehension in square brackets. -/
def bracketed (self : Rules) : Step Forest := within do
  let opening ← symbol "["
  let items ← commaList (do
    let item ← if (← ahead) == "yield" then yieldOrExpressions self else starred self
    return item) (closes "]")
  if atClause (← get) then
    let loops ← clauses self
    let closing ← symbol "]"
    return node .phrase (opening ++ items ++ loops ++ closing)
  let closing ← symbol "]"
  return node .list (opening ++ items ++ closing)

/-- An element of a set, or a pair of a dictionary. -/
def entry (self : Rules) : Step Forest := do
  let key ← starred self
  if (← ahead) == ":" then
    let colon ← take .symbol
    let value ← self .expression
    return node .phrase (key ++ colon ++ value)
  else return key

/-- A set, a dictionary or a comprehension of either. A dictionary may be but a comma. -/
def braced (self : Rules) : Step Forest := within do
  let opening ← symbol "\x7b"
  if (← ahead) == "," then
    let comma ← take .symbol
    let closing ← symbol "\x7d"
    return node .phrase (opening ++ comma ++ closing)
  let items ← commaList (entry self) (closes "\x7d")
  let loops ← clauses self
  let closing ← symbol "\x7d"
  return node .phrase (opening ++ items ++ loops ++ closing)

/-- An index or a slice. -/
def index (self : Rules) : Step Forest := do
  let first ← if (← get).atOperand then starred self else pure []
  if (← ahead) == ":" then
    let rest ← repeatWhile do
      if (← ahead) == ":" then
        let colon ← take .symbol
        let value ← if (← get).atOperand then self .expression else pure []
        return some (colon ++ value)
      else return none
    return node .phrase (first ++ rest)
  else if first.isEmpty then failHere
  else return first

def indices (self : Rules) : Step Forest := within do
  let opening ← symbol "["
  let items ← commaList (index self) (closes "]")
  if items.isEmpty then failHere
  let closing ← symbol "]"
  return opening ++ items ++ closing

/-! ### Parameters -/

/-- Several names in brackets, where one may stand. -/
def tupleParameter (self : Rules) : Step Forest := do
  let names ← parenthesized self
  if !forestIsTarget names then failHere
  return names

/-- One parameter; `typed` if it may carry an annotation. -/
def parameter (self : Rules) (typed : Bool) : Step Forest := do
  let c ← get
  let annotation : Step Forest := do
    if typed && (← ahead) == ":" then
      let colon ← take .symbol
      let type ← starred self
      return colon ++ withRole .type type
    else return []
  if c.ahead == "*" || c.ahead == "**" then
    let next := c.next
    if next.isName then
      let star ← take .symbol
      let word ← name
      let splat := node (if c.ahead == "*" then .listSplat else .mapSplat) (star ++ word)
      let type ← annotation
      return nodeUnless type.isEmpty .typedParameter (splat ++ type)
    else take .phrase
  else if c.ahead == "/" then take .phrase
  else
    let word ← if c.ahead == "(" then tupleParameter self else name
    let type ← if c.ahead == "(" then pure [] else annotation
    if (← ahead) == "=" then
      let equals ← take .symbol
      let value ← self .expression
      return node .defaultParameter
        (withRole .name word ++ type ++ equals ++ withRole .value value)
    else return nodeUnless type.isEmpty .typedParameter (word ++ type)

def parametersEnd (c : Cursor) : Bool := c.ahead == ")" || c.ahead == ":"

def lambda (self : Rules) : Step Forest := do
  let word ← symbol "lambda"
  let parameters ← commaList (parameter self false) parametersEnd
  let colon ← symbol ":"
  let body ← self .expression
  return node .phrase
    (word ++ nodeUnless parameters.isEmpty .phrase parameters ++ colon ++ body)

/-! ### Operands -/

def atom (self : Rules) : Step Forest := do
  let c ← get
  if c.halts then failHere
  match c.look.shape with
  | .number => take .number
  | .quote  => strings self
  | .word   =>
    if c.isName then take .identifier
    else if ["None", "True", "False"].contains c.look.text then take .phrase
    else failHere
  | .mark   =>
    if c.look.text == "(" then parenthesized self
    else if c.look.text == "[" then bracketed self
    else if c.look.text == "\x7b" then braced self
    else if c.look.text == "..." then take .ellipsis
    else failHere
  | _       => failHere

/-- One attribute, call or index after an operand. -/
def trailer (self : Rules) (tree : Forest) : Step (Option Forest) := do
  let next ← ahead
  if next == "." then
    let dot ← take .symbol
    let word ← name
    return some (node .attribute (withRole .object tree ++ dot ++ withRole .attribute word))
  else if next == "(" then
    let args ← arguments self
    return some (node .call (withRole .function tree ++ withRole .arguments args))
  else if next == "[" then
    let items ← indices self
    return some (node .subscript (withRole .value tree ++ items))
  else return none

def operand (self : Rules) : Step Forest := do
  let tree ← atom self
  extend (trailer self) tree

/-- `await` is a word of the language where an operand follows it. -/
def awaits (c : Cursor) : Bool :=
  c.ahead == "await" &&
    (c.next.look.shape == .number || c.next.look.shape == .quote || c.next.isName ||
      ["(", "[", "\x7b"].contains c.next.ahead)

def awaited (self : Rules) : Step Forest := do
  if awaits (← get) then
    let word ← take .symbol
    let value ← operand self
    return node .phrase (word ++ value)
  else operand self

def power (self : Rules) : Step Forest := do
  let base ← awaited self
  if (← ahead) == "**" then
    let mark ← take .symbol
    let exponent ← self .unary
    return node .phrase (base ++ mark ++ exponent)
  else return base

/-- A sign in front of an operand, or the operand. -/
def unary (self : Rules) : Step Forest := do
  if ["-", "+", "~"].contains (← ahead) then
    let sign ← take .symbol
    let value ← self .unary
    return node .unaryOperator (withRole .operator sign ++ withRole .argument value)
  else power self

/-- Operands joined by operators of one strength, from the left. -/
def joined (kind : Kind) (marks : List String) (next : Step Forest) : Step Forest := do
  let first ← next
  extend (fun left => do
    if marks.contains (← ahead) then
      let mark ← take .symbol
      let right ← next
      return some (node kind (left ++ mark ++ right))
    else return none) first

def bitwise (self : Rules) : Step Forest :=
  let product := joined .phrase ["*", "/", "//", "%", "@"] (unary self)
  let sum := joined .phrase ["+", "-"] product
  let shift := joined .phrase ["<<", ">>"] sum
  let conjunct := joined .phrase ["&"] shift
  let exclusive := joined .phrase ["^"] conjunct
  joined .phrase ["|"] exclusive

/-! ### Comparisons and tests -/

/-- An operator between compared operands; `is not` and `not in` are one symbol. -/
def comparator? : Step (Option Forest) := do
  let c ← get
  if ["<", "<=", "==", "!=", ">=", ">", "<>", "in"].contains c.ahead then
    return some (← take .symbol)
  else if c.ahead == "is" then
    let word ← take .symbol
    if (← ahead) == "not" then
      let more ← take .symbol
      return some (node .symbol (word ++ more))
    else return some word
  else if c.ahead == "not" && c.next.ahead == "in" then
    let word ← take .symbol
    let more ← take .symbol
    return some (node .symbol (word ++ more))
  else return none

def comparison (self : Rules) : Step Forest := do
  let first ← bitwise self
  let rest ← repeatWhile do
    match ← comparator? with
    | none      => return none
    | some mark =>
      let value ← bitwise self
      return some (mark ++ value)
  return nodeUnless rest.isEmpty .comparison (first ++ rest)

def negation (self : Rules) : Step Forest := do
  if (← ahead) == "not" then
    let word ← take .symbol
    let value ← self .negation
    return node .phrase (word ++ value)
  else comparison self

def disjunction (self : Rules) : Step Forest := do
  if (← ahead) == "lambda" then lambda self
  else joined .booleanOperator ["or"] (joined .booleanOperator ["and"] (negation self))

/-- A disjunction with a condition, a name given to a value, or a value given to a target. -/
def expression (self : Rules) : Step Forest := do
  let value ← disjunction self
  let value ←
    if (← ahead) == ":=" then do
      let mark ← take .symbol
      let right ← self .expression
      pure (node .phrase (value ++ mark ++ right))
    else pure value
  let value ←
    if (← ahead) == "if" then do
      let ifWord ← take .symbol
      let test ← self .disjunction
      let elseWord ← symbol "else"
      let other ← self .expression
      pure (node .phrase (value ++ ifWord ++ test ++ elseWord ++ other))
    else pure value
  if (← ahead) == "as" then
    let word ← take .symbol
    let target ← self .operand
    return node .phrase (value ++ word ++ target)
  else return value

end ArchReview.Python

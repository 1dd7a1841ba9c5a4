import ArchReview.Grammar.ScriptCursor

/-!
# Reading steps for scripts

The steps that take one token. The grammar is recursive through `Goal`: each rule takes the reader
of all goals as an argument and the knot is tied once, on a number that bounds the depth.

A word is a keyword only where the grammar has a place for it, and a name everywhere else.
-/

namespace ArchReview.Script

open Grammar

abbrev Forest := List Tree

/-- A step over a script. -/
abbrev Step := Grammar.Parse Cursor

/-- The recursive entries of the grammar. -/
inductive Goal where
  /-- Expressions between commas. -/
  | sequence
  /-- One expression. -/
  | value
  | unary
  /-- What a class extends. -/
  | base
  /-- A name or a destructuring pattern. -/
  | pattern
  | signature
  | block
  | classBody
  | markup
  /-- A name with members, perhaps called, or an expression in parentheses. -/
  | reference
  | type
  | statement
  deriving Repr, Inhabited

/-- A reader for every goal. -/
abbrev Rules := Goal → Step Forest

/-! ### Tokens -/

def ahead : Step String := return (← get).ahead

def aheadOperator : Step String := return (← get).aheadOperator

def aheadTypeMark : Step String := return (← get).aheadTypeMark

/-- The next token as a leaf, after its comments. -/
def take (kind : Kind) : Step Forest := fun c =>
  if c.look.text.isEmpty then .error (Position.fault c)
  else
    let leaf := Tree.leaf kind .plain c.look.gap c.look.text c.look.line
    .ok ((c.look.trivia.map fun t => t.leaf) ++ [leaf], c.next)

/-- The first characters of the next token as a leaf, after its comments. -/
def takePart (kind : Kind) (length : Nat) : Step Forest := fun c =>
  let text := c.look.start.take length
  if text.isEmpty then .error (Position.fault c)
  else
    let leaf := Tree.leaf kind .plain c.look.gap (String.ofList text) c.look.line
    .ok ((c.look.trivia.map fun t => t.leaf) ++ [leaf],
      c.moveTo (c.look.start.drop length) (c.look.line + text.count '\n'))

/-- Takes some characters right behind the last token; no leaf for no characters. -/
def takeChars (kind : Kind) (length : Nat) : Step Forest := fun c =>
  let text := c.chars.take length
  let forest := if text.isEmpty then [] else [.leaf kind .plain "" (String.ofList text) c.line]
  .ok (forest, c.moveTo (c.chars.drop length) (c.line + text.count '\n'))

/-- Passes comments in the style of HTML, where no operator can stand. -/
def htmlComments : Step Unit := modify fun c => c.passHtmlComments c.chars.length

def symbol (text : String) : Step Forest := do
  if (← ahead) == text then take .symbol else failHere

/-- The symbol if it is next. -/
def symbol? (text : String) : Step Forest := do
  if (← ahead) == text then take .symbol else return []

/-- One closing angle bracket, also out of a longer mark. -/
def closeAngle : Step Forest := do
  if Text.startsWith (← ahead) ">" then takePart .symbol 1 else failHere

/-- Any word as a leaf of the given kind. -/
def word (kind : Kind) : Step Forest := do
  if (← get).look.shape == .word then take kind else failHere

def string : Step Forest := do
  if (← get).look.shape == .string then take .string else failHere

/-- Reads where line breaks are blanks. -/
def within {α : Type} (p : Step α) : Step α := do
  let bound := (← get).bound
  modify fun c => { c with bound := false }
  let r ← p
  modify fun c => { c with bound := bound }
  return r

/-- Reads where line breaks can end a statement or a member. -/
def lineBound {α : Type} (p : Step α) : Step α := do
  let bound := (← get).bound
  modify fun c => { c with bound := true }
  let r ← p
  modify fun c => { c with bound := bound }
  return r

/-- Items between commas, until `stops` holds where an item would start. -/
def commaList (item : Step Forest) (stops : Cursor → Bool) : Step Forest :=
  separated item (symbol? ",") stops

def closes (bracket : String) (c : Cursor) : Bool := c.ahead == bracket

/-- `p` if the cursor is where it starts, nothing otherwise. -/
def when? (starts : Cursor → Bool) (p : Step Forest) : Step Forest := do
  if starts (← get) then p else return []

/-! ### Ends of statements -/

/-- Takes comments before the next token, up to the first that does not belong. -/
def takeComments (belongs : Trivium → Bool) : Step Forest := fun c =>
  let forest := (c.look.trivia.takeWhile belongs).map fun t => t.leaf
  let passed := Tree.forestSize forest
  .ok (forest, { c with
    chars := c.chars.drop passed
    line := c.line + (c.chars.take passed).count '\n'
    look := { c.look with trivia := c.look.trivia.dropWhile belongs } })

/-- Takes the comments on the line of the last token. -/
def takeLineComments : Step Forest := takeComments fun t => !t.fresh

/-- A statement may end here without a semicolon. -/
def canEnd (c : Cursor) : Bool :=
  c.look.shape == .finish || c.ahead == "\x7d" || c.look.fresh

/-- A semicolon, or a place where none is needed; comments on the line belong to the statement. -/
def semicolon : Step Forest := do
  if (← ahead) == ";" then take .symbol
  else if canEnd (← get) then takeLineComments
  else failHere

/-! ### What may follow a modifier -/

/-- A property name starts here. -/
def atPropertyName (c : Cursor) : Bool :=
  match c.look.shape with
  | .word | .privateWord | .string | .number => true
  | .mark                                   => c.look.text == "["
  | _                                       => false

/-- The next word is a modifier: a name follows it on the line. -/
def isModifier (c : Cursor) (text : String) : Bool :=
  c.look.shape == .word && c.look.text == text &&
    (atPropertyName c.next || c.next.ahead == "*") && !c.next.look.fresh

def isAccessibility (c : Cursor) : Bool :=
  ["public", "private", "protected"].contains c.ahead

end ArchReview.Script

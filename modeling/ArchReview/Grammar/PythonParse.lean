import ArchReview.Grammar.PythonCursor
import ArchReview.Grammar.Steps

/-!
# Reading steps for Python

The steps that take one token, and what can be told from the token ahead.

The grammar is recursive through `Goal`: each rule takes the reader of all goals as an argument
and the knot is tied once, on a number that bounds the depth.
-/

namespace ArchReview.Python

open Grammar

abbrev Forest := List Tree

instance : Grammar.HasTrivia Kind := ⟨Kind.isTrivia⟩

instance : Grammar.Position Cursor where
  remaining c := c.chars.length + 1
  fault c     := ⟨c.look.line, c.look.shape == .finish⟩

/-- A step over Python text. -/
abbrev Step := Grammar.Parse Cursor

/-- The recursive entries of the grammar. -/
inductive Goal where
  | expression
  | disjunction
  | negation
  | unary
  | operand
  | interpolation
  | casePattern
  | suite
  | statement
  deriving Repr, Inhabited

/-- A reader for every goal. -/
abbrev Rules := Goal → Step Forest

/-! ### Looking ahead -/

/-- Words that are never names. -/
def reservedWords : List String :=
  ["False", "None", "True", "and", "as", "assert", "break", "class", "continue", "def", "del",
   "elif", "else", "except", "finally", "for", "from", "global", "if", "import", "in", "is",
   "lambda", "nonlocal", "not", "or", "pass", "raise", "return", "try", "while", "with", "yield"]

namespace Cursor

/-- Nothing more is to be read on this line. -/
def halts (c : Cursor) : Bool := c.look.shape == .finish || (c.bound && c.look.fresh)

/-- The next word or mark, empty if there is none. -/
def ahead (c : Cursor) : String :=
  if c.halts then ""
  else match c.look.shape with
    | .word | .mark => c.look.text
    | _             => ""

def isName (c : Cursor) : Bool :=
  !c.halts && c.look.shape == .word && !reservedWords.contains c.look.text

/-- The next token can start an operand. -/
def atOperand (c : Cursor) : Bool :=
  !c.halts && match c.look.shape with
    | .number | .quote => true
    | .word            =>
      !reservedWords.contains c.look.text ||
        ["None", "True", "False", "not", "lambda", "yield"].contains c.look.text
    | .mark            =>
      ["(", "[", "\x7b", "-", "+", "~", "*", "**", "..."].contains c.look.text
    | _                => false

/-- Starts a statement here: the line break before it has been dealt with. -/
def enter (c : Cursor) : Cursor :=
  { c with bound := true, look := { c.look with fresh := false } }

end Cursor

/-! ### Steps -/

def ahead : Step String := return (← get).ahead

/-- The next token as a leaf, after its trivia. -/
def take (kind : Kind) : Step Forest := fun c =>
  if c.look.text.isEmpty then .error (Position.fault c)
  else
    let leaf := Tree.leaf kind .plain c.look.gap c.look.text c.look.line
    .ok ((c.look.trivia.map fun t => t.leaf) ++ [leaf], c.next)

def symbol (text : String) : Step Forest := do
  if (← ahead) == text then take .symbol else failHere

/-- The symbol if it is next. -/
def symbol? (text : String) : Step Forest := do
  if (← ahead) == text then take .symbol else return []

def name : Step Forest := do
  if (← get).isName then take .identifier else failHere

/-- Reads where line breaks are blanks. -/
def within {α : Type} (p : Step α) : Step α := do
  let bound := (← get).bound
  modify fun c => { c with bound := false }
  let r ← p
  modify fun c => { c with bound := bound }
  return r

/-- Items between commas, until `stops` holds where an item would start. -/
def commaList (item : Step Forest) (stops : Cursor → Bool) : Step Forest :=
  separated item (symbol? ",") stops

end ArchReview.Python

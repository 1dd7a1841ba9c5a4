import ArchReview.Grammar.PythonKind
import ArchReview.Text.Hex

/-!
# Reading position in a Python text

A `Cursor` stands behind the last token read. It looks ahead to the next token over blanks, line
breaks and trivia (comments and line continuations) and remembers what was passed: whether a line
ended, how far the token's line is indented, and how far each comment is. Blocks are told from
these alone: a block closes before the first token that is indented less than the block.

A tab counts as eight columns; a carriage return or a form feed starts the count again.
-/

namespace ArchReview.Python

/-- The sort of a token. -/
inductive Shape where
  | word
  | number
  | quote
  | mark
  | stray
  | finish
  deriving DecidableEq, Repr, Inhabited

/-- A comment or a continuation in front of a token. -/
structure Trivium where
  leaf : Tree
  ownLine : Bool
  indent : Nat
  deriving Inhabited

/-- The next token and what stands before it. -/
structure Look where
  trivia : List Trivium
  gap : String
  line : Nat
  fresh : Bool
  indent : Nat
  shape : Shape
  text : String
  rest : List Char
  deriving Inhabited

/-! ### Blanks and trivia -/

/-- Characters that separate tokens. -/
def isSpace (c : Char) : Bool :=
  Text.isBlank c || c.toNat == 0xFEFF || c.toNat == 0x2060 || c.toNat == 0x200B

/-- What has been passed since the last token; lists are in reverse. -/
structure Gap where
  trivia : List Trivium
  blanks : List Char
  line : Nat
  fresh : Bool
  indent : Nat
  /-- The characters of an open comment. -/
  comment : Option (List Char)

namespace Gap

def addTrivium (g : Gap) (kind : Kind) (text : List Char) : Gap :=
  let leaf := Tree.leaf kind .plain (String.ofList g.blanks.reverse) (String.ofList text) g.line
  { g with
    trivia := ⟨leaf, g.fresh, g.indent⟩ :: g.trivia
    blanks := []
    line := g.line + text.count '\n'
    comment := none }

def close (g : Gap) : Gap :=
  match g.comment with
  | none     => g
  | some cs  => { g with comment := none }.addTrivium .comment cs.reverse

def addBlank (g : Gap) (c : Char) : Gap :=
  let g := { g with blanks := c :: g.blanks }
  if c == '\n' then { g with line := g.line + 1, fresh := true, indent := 0 }
  else if c == ' ' then { g with indent := g.indent + 1 }
  else if c == '\t' then { g with indent := g.indent + 8 }
  else if c == '\r' || c == '\x0c' then { g with indent := 0 }
  else g

/-- A character of an open comment, or the one that opens it. -/
def commentChar (g : Gap) (c : Char) : Gap :=
  { g with comment := some (c :: g.comment.getD []) }

/-- Passes blanks and trivia; the rest starts with a token or is empty. -/
def pass (g : Gap) : List Char → Gap × List Char
  | []                         => ({ g.close with fresh := true, indent := 0 }, [])
  | '\\' :: '\n' :: cs         =>
    if g.comment.isSome then ((g.commentChar '\\').close.addBlank '\n').pass cs
    else (g.addTrivium .continuation ['\\', '\n']).pass cs
  | '\\' :: '\r' :: '\n' :: cs =>
    if g.comment.isSome then
      (((g.commentChar '\\').commentChar '\r').close.addBlank '\n').pass cs
    else (g.addTrivium .continuation ['\\', '\r', '\n']).pass cs
  | c :: cs                    =>
    if g.comment.isSome then
      if c == '\n' then (g.close.addBlank c).pass cs else (g.commentChar c).pass cs
    else if c == '#' then (g.commentChar c).pass cs
    else if isSpace c then (g.addBlank c).pass cs
    else (g, c :: cs)

end Gap

/-! ### Tokens -/

/-- Digits with single underscores after them. -/
def spanDigits (isDigit : Char → Bool) : Bool → List Char → List Char × List Char
  | _, []        => ([], [])
  | after, c :: cs =>
    if isDigit c then
      let (ds, rest) := spanDigits isDigit true cs
      (c :: ds, rest)
    else if after && c == '_' then
      let (ds, rest) := spanDigits isDigit false cs
      (c :: ds, rest)
    else ([], c :: cs)

def isDecimal (c : Char) : Bool := c.isDigit

/-- An exponent with at least one digit, or nothing. -/
def spanExponent (cs : List Char) : List Char × List Char :=
  match cs with
  | e :: s :: d :: _ =>
    if (e == 'e' || e == 'E') && (s == '+' || s == '-') && d.isDigit then
      let (ds, rest) := spanDigits isDecimal false (cs.drop 2)
      (e :: s :: ds, rest)
    else if (e == 'e' || e == 'E') && s.isDigit then
      let (ds, rest) := spanDigits isDecimal false (cs.drop 1)
      (e :: ds, rest)
    else ([], cs)
  | [e, s]           =>
    if (e == 'e' || e == 'E') && s.isDigit then (cs, []) else ([], cs)
  | _                => ([], cs)

/-- One optional character. -/
def spanOne (p : Char → Bool) : List Char → List Char × List Char
  | c :: cs => if p c then ([c], cs) else ([], c :: cs)
  | []      => ([], [])

def isImaginary (c : Char) : Bool := c == 'j' || c == 'J'

def isLong (c : Char) : Bool := c == 'l' || c == 'L'

/-- A number in a base other than ten, after its two-character mark. -/
def spanBased (isDigit : Char → Bool) (mark : List Char) (cs : List Char) :
    List Char × List Char :=
  let (ds, rest) := spanDigits isDigit true cs
  let (l, rest) := spanOne isLong rest
  (mark ++ ds ++ l, rest)

/-- The tail of a number after its whole part: fraction, exponent, suffix. -/
def spanTail (whole : List Char) (cs : List Char) : List Char × List Char :=
  match cs with
  | '.' :: cs =>
    let (frac, rest) := spanDigits isDecimal false cs
    let (ex, rest) := spanExponent rest
    let (im, rest) := spanOne isImaginary rest
    (whole ++ '.' :: frac ++ ex ++ im, rest)
  | cs        =>
    let (ex, rest) := spanExponent cs
    let (sfx, rest) :=
      if ex.isEmpty then spanOne (fun c => isImaginary c || isLong c) rest
      else spanOne isImaginary rest
    (whole ++ ex ++ sfx, rest)

/-- A number literal; the text starts with a digit, or with a point and a digit. -/
def spanNumber (cs : List Char) : List Char × List Char :=
  match cs with
  | '0' :: x :: rest =>
    if x == 'x' || x == 'X' then spanBased Text.isHexDigit ['0', x] rest
    else if x == 'o' || x == 'O' then spanBased isDecimal ['0', x] rest
    else if x == 'b' || x == 'B' then spanBased isDecimal ['0', x] rest
    else
      let (ds, rest) := spanDigits isDecimal false cs
      spanTail ds rest
  | '.' :: _         => spanTail [] cs
  | _                =>
    let (ds, rest) := spanDigits isDecimal false cs
    spanTail ds rest

/-- Operators and punctuation, longer ones first. -/
def marks : List String :=
  ["**=", "//=", ">>=", "<<=", "...",
   "**", "//", ">>", "<<", "<=", ">=", "==", "!=", "<>", "->", ":=", "+=", "-=", "*=", "/=",
   "%=", "@=", "&=", "|=", "^=",
   "+", "-", "*", "/", "%", "@", "&", "|", "^", "~", "<", ">", "(", ")", "[", "]", "\x7b",
   "\x7d", ",", ":", ".", ";", "=", "!"]

/-- Letters that may stand before the opening quote of a string. -/
def isQuoteLetter (c : Char) : Bool := ['f', 'F', 'r', 'R', 'b', 'B', 'u', 'U'].contains c

/-- The length of the opening of a string: letters, then one quote or three. -/
def openQuote? (cs : List Char) : Option Nat :=
  let letters := (cs.takeWhile isQuoteLetter).length
  match cs.drop letters with
  | '"' :: '"' :: '"' :: _    => some (letters + 3)
  | '\'' :: '\'' :: '\'' :: _ => some (letters + 3)
  | '"' :: _                  => some (letters + 1)
  | '\'' :: _                 => some (letters + 1)
  | _                         => none

/-- The sort and the length of the token at the start of a text without leading blanks. -/
def tokenAt (cs : List Char) : Shape × Nat :=
  match cs with
  | []      => (.finish, 0)
  | c :: tl =>
    match openQuote? cs with
    | some length => (.quote, length)
    | none        =>
      if Text.isIdentifierStart c then
        (.word, (tl.takeWhile Text.isIdentifierContinue).length + 1)
      else if c.isDigit || (c == '.' && (tl.head?.map Char.isDigit).getD false) then
        (.number, (spanNumber cs).1.length)
      else match marks.find? (fun m => m.toList.isPrefixOf cs) with
        | some m => (.mark, m.length)
        | none   => (.stray, 1)

/-- Continuations right before a string opening count as blanks. -/
def dissolve (trivia : List Trivium) (gap : List Char) : List Trivium × List Char :=
  match trivia with
  | t :: ts =>
    if t.leaf.kind == .continuation then
      match t.leaf with
      | .leaf _ _ g s _ => dissolve ts (g.toList ++ s.toList ++ gap)
      | .node ..        => (t :: ts, gap)
    else (t :: ts, gap)
  | []      => ([], gap)

/-- Looks ahead from a position. -/
def Look.scan (cs : List Char) (line : Nat) : Look :=
  let (g, start) := Gap.pass ⟨[], [], line, false, 0, none⟩ cs
  let (shape, length) := tokenAt start
  let gap := g.blanks.reverse
  let (trivia, gap) := if shape == .quote then dissolve g.trivia gap else (g.trivia, gap)
  { trivia := trivia.reverse, gap := String.ofList gap, line := g.line, fresh := g.fresh,
    indent := g.indent, shape, text := String.ofList (start.take length),
    rest := start.drop length }

/-! ### The cursor -/

structure Cursor where
  /-- What follows the last token. -/
  chars : List Char
  line : Nat
  /-- Whether the end of a line ends what is being read. -/
  bound : Bool
  /-- Indentation of the open blocks, innermost first. -/
  indents : List Nat
  look : Look
  deriving Inhabited

namespace Cursor

def place (chars : List Char) (line : Nat) (bound : Bool) (indents : List Nat) : Cursor :=
  ⟨chars, line, bound, indents, Look.scan chars line⟩

def start (source : List Char) : Cursor := place source 1 true []

/-- The same cursor at another position of the text. -/
def moveTo (c : Cursor) (chars : List Char) (line : Nat) : Cursor :=
  place chars line c.bound c.indents

/-- Behind the next token. -/
def next (c : Cursor) : Cursor :=
  c.moveTo c.look.rest (c.look.line + Leaf.breaks c.look.text)

def indent (c : Cursor) : Nat := c.indents.headD 0

/-- The innermost open block ends here. -/
def dedents (c : Cursor) : Bool :=
  c.look.shape == .finish || (c.look.fresh && c.look.indent < c.indent)

end Cursor

end ArchReview.Python

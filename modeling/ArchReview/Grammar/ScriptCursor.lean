import ArchReview.Grammar.ScriptKind
import ArchReview.Grammar.Steps
import ArchReview.Text.Hex

/-!
# Reading position in a script

A `Cursor` stands behind the last token read and looks ahead to the next one, over blanks and
comments. It remembers whether a line ended on the way: a statement may end there without a
semicolon, unless the next token carries it on.

What a slash or a backquote opens depends on the place, so the look-ahead keeps the characters
from the start of the token and the rules read regular expressions, templates and markup from
there. Neither are `<!--` and `-->` comments everywhere: behind an operand they are operators, so
the rules pass them where there is none (`htmlComments`).
-/

namespace ArchReview.Script

/-- The sort of a token. -/
inductive Shape where
  | word
  | privateWord
  | number
  | string
  | backquote
  | mark
  | stray
  | finish
  deriving DecidableEq, Repr, Inhabited

/-- A comment in front of a token. -/
structure Trivium where
  leaf : Tree
  /-- A line ended before it. -/
  fresh : Bool
  deriving Inhabited

/-- The next token and what stands before it. -/
structure Look where
  trivia : List Trivium
  gap : String
  line : Nat
  fresh : Bool
  shape : Shape
  text : String
  /-- The characters from the start of the token. -/
  start : List Char
  rest : List Char
  deriving Inhabited

/-! ### Blanks and comments -/

/-- Characters that separate tokens. -/
def isSpace (c : Char) : Bool :=
  Text.isBlank c || c.toNat == 0xFEFF || c.toNat == 0x2060 || c.toNat == 0x200B

def isLineEnd (c : Char) : Bool := c == '\n' || c.toNat == 0x2028 || c.toNat == 0x2029

/-- Which comment is open. -/
inductive Comment where
  | none
  | line
  | block
  deriving DecidableEq, Repr

/-- What has been passed since the last token; lists are in reverse. -/
structure Gap where
  trivia : List Trivium
  blanks : List Char
  line : Nat
  fresh : Bool
  comment : Comment
  /-- The characters of the open comment. -/
  inside : List Char

namespace Gap

def close (g : Gap) : Gap :=
  if g.comment == .none then g
  else
    let text := g.inside.reverse
    let leaf := Tree.leaf .comment .plain (String.ofList g.blanks.reverse) (String.ofList text) g.line
    { trivia := ⟨leaf, g.fresh⟩ :: g.trivia
      blanks := []
      line := g.line + text.count '\n'
      fresh := g.fresh || text.any isLineEnd
      comment := .none
      inside := [] }

def addBlank (g : Gap) (c : Char) : Gap :=
  { g with
    blanks := c :: g.blanks
    line := if c == '\n' then g.line + 1 else g.line
    fresh := g.fresh || isLineEnd c }

def addInside (g : Gap) (c : Char) : Gap := { g with inside := c :: g.inside }

/-- Passes blanks and comments; the rest starts with a token or is empty. -/
def pass (g : Gap) : List Char → Gap × List Char
  | []                => (if g.comment == .line then g.close else g, [])
  | '*' :: '/' :: cs  =>
    match g.comment with
    | .none  => (g, '*' :: '/' :: cs)
    | .line  => ((g.addInside '*').addInside '/').pass cs
    | .block => ((g.addInside '*').addInside '/').close.pass cs
  | '/' :: '/' :: cs  =>
    if g.comment == .none then { g with comment := .line, inside := ['/', '/'] }.pass cs
    else ((g.addInside '/').addInside '/').pass cs
  | '/' :: '*' :: cs  =>
    match g.comment with
    | .none  => { g with comment := .block, inside := ['*', '/'] }.pass cs
    | .line  => ((g.addInside '/').addInside '*').pass cs
    | .block => (g.addInside '/').pass ('*' :: cs)
  | c :: cs           =>
    match g.comment with
    | .none  => if isSpace c then (g.addBlank c).pass cs else (g, c :: cs)
    | .line  => if isLineEnd c then (g.close.addBlank c).pass cs else (g.addInside c).pass cs
    | .block => (g.addInside c).pass cs

end Gap

/-! ### Tokens -/

def isWordChar (c : Char) : Bool :=
  if c.toNat < 128 then c.isAlphanum || c == '_' || c == '$' || c.toNat == 127
  else !isSpace c && !isLineEnd c

def isWordStart (c : Char) : Bool := isWordChar c && !c.isDigit

/-- The length of a word, with its escapes. -/
def wordLength : List Char → Nat
  | '\\' :: 'u' :: cs => wordLength cs + 2
  | c :: cs           => if isWordChar c then wordLength cs + 1 else 0
  | []                => 0

def startsWord : List Char → Bool
  | '\\' :: 'u' :: _ => true
  | c :: _           => isWordStart c
  | []               => false

/-- Digits, with single underscores between them. -/
def spanDigits (isDigit : Char → Bool) : List Char → List Char × List Char
  | '_' :: c :: cs =>
    if isDigit c then
      let (ds, rest) := spanDigits isDigit cs
      ('_' :: c :: ds, rest)
    else ([], '_' :: c :: cs)
  | c :: cs        =>
    if isDigit c then
      let (ds, rest) := spanDigits isDigit cs
      (c :: ds, rest)
    else ([], c :: cs)
  | []             => ([], [])

/-- An exponent with at least one digit, or nothing. -/
def spanExponent (cs : List Char) : List Char × List Char :=
  match cs with
  | e :: rest =>
    if e == 'e' || e == 'E' then
      let (sign, digits) := match rest with
        | '+' :: r => (['+'], r)
        | '-' :: r => (['-'], r)
        | r        => ([], r)
      let (ds, rest) := spanDigits Char.isDigit digits
      if ds.isEmpty then ([], cs) else (e :: sign ++ ds, rest)
    else ([], cs)
  | []        => ([], [])

/-- The mark of a big integer. -/
def spanBig (cs : List Char) : List Char × List Char :=
  match cs with
  | 'n' :: rest => (['n'], rest)
  | _           => ([], cs)

/-- A number literal; the text starts with a digit, or with a point and a digit. -/
def spanNumber (cs : List Char) : List Char × List Char :=
  let based := fun (isDigit : Char → Bool) =>
    let (ds, rest) := spanDigits isDigit (cs.drop 2)
    let (big, rest) := spanBig rest
    (cs.take 2 ++ ds ++ big, rest)
  match cs with
  | '0' :: 'x' :: _ | '0' :: 'X' :: _ => based Text.isHexDigit
  | '0' :: 'o' :: _ | '0' :: 'O' :: _ => based Char.isDigit
  | '0' :: 'b' :: _ | '0' :: 'B' :: _ => based Char.isDigit
  | _                                 =>
    let (whole, rest) := spanDigits Char.isDigit cs
    match rest with
    | '.' :: after =>
      let (fraction, rest) := spanDigits Char.isDigit after
      let (ex, rest) := spanExponent rest
      (whole ++ '.' :: fraction ++ ex, rest)
    | _            =>
      let (ex, rest) := spanExponent rest
      let (big, rest) := if ex.isEmpty then spanBig rest else ([], rest)
      (whole ++ ex ++ big, rest)

/-- The length of the inside of a string and its closing quote. -/
def stringLength? (quote : Char) : List Char → Option Nat
  | '\\' :: _ :: cs => (stringLength? quote cs).map (· + 2)
  | c :: cs         =>
    if c == quote then some 1
    else if c == '\n' then none
    else (stringLength? quote cs).map (· + 1)
  | []              => none

/-- Operators and punctuation, longer ones first. -/
def marks : List String :=
  [">>>=", "...", "===", "!==", "**=", "<<=", ">>=", ">>>", "&&=", "||=", "??=",
   "=>", "==", "!=", "<=", ">=", "&&", "||", "??", "?.", "++", "--", "+=", "-=", "*=", "/=", "%=",
   "&=", "|=", "^=", "<<", ">>", "**",
   "\x7b", "\x7d", "(", ")", "[", "]", ";", ",", "<", ">", "+", "-", "*", "/", "%", "&", "|", "^",
   "!", "~", "?", ":", "=", ".", "@"]

/-- A question mark before a number is not part of `?.`. -/
def markFits (cs : List Char) (mark : String) : Bool :=
  mark.toList.isPrefixOf cs &&
    !(mark == "?." && ((cs.drop 2).head?.map Char.isDigit).getD false)

/-- The sort and the length of the token at the start of a text without leading blanks. -/
def tokenAt (cs : List Char) : Shape × Nat :=
  match cs with
  | []      => (.finish, 0)
  | c :: tl =>
    if startsWord cs then (.word, wordLength cs)
    else if c.isDigit || (c == '.' && (tl.head?.map Char.isDigit).getD false) then
      (.number, (spanNumber cs).1.length)
    else if c == '"' || c == '\'' then
      match stringLength? c tl with
      | some length => (.string, length + 1)
      | none        => (.stray, 1)
    else if c == '`' then (.backquote, 1)
    else if c == '#' && startsWord tl then (.privateWord, wordLength tl + 1)
    else match marks.find? (markFits cs) with
      | some m => (.mark, m.length)
      | none   => (.stray, 1)

/-- Looks ahead from where something has been passed already. -/
def Look.scanFrom (g : Gap) (cs : List Char) : Look :=
  let (g, rest) := g.pass cs
  -- a comment that is never closed is no token
  let start := g.inside.reverse ++ rest
  let (shape, length) := if g.comment == .block then (.stray, 0) else tokenAt start
  { trivia := g.trivia.reverse, gap := String.ofList g.blanks.reverse, line := g.line,
    fresh := g.fresh, shape, text := String.ofList (start.take length), start,
    rest := start.drop length }

/-- Looks ahead from a position. -/
def Look.scan (cs : List Char) (line : Nat) : Look :=
  Look.scanFrom ⟨[], [], line, false, .none, []⟩ cs

/-- A comment that reaches from `<!--` or `-->` to the end of the line is ahead. -/
def Look.atHtmlComment (look : Look) : Bool :=
  ["<!--", "-->"].any fun mark => mark.toList.isPrefixOf look.start

/-- Looks on behind the comment ahead. -/
def Look.passHtmlComment (look : Look) : Look :=
  let text := look.start.takeWhile fun c => !isLineEnd c
  let leaf := Tree.leaf .htmlComment .plain look.gap (String.ofList text) look.line
  let next := Look.scan (look.start.drop text.length) (look.line + text.count '\n')
  { next with
    trivia := look.trivia ++ ⟨leaf, look.fresh⟩ :: next.trivia
    fresh := look.fresh || next.fresh }

/-! ### The cursor -/

/-- Whether markup is part of the language. -/
inductive Dialect where
  | plain
  | markup
  deriving DecidableEq, Repr, Inhabited

structure Cursor where
  /-- What follows the last token. -/
  chars : List Char
  line : Nat
  /-- Whether the end of a line can end what is being read. -/
  bound : Bool
  /-- Whether an arrow function may name its result type. -/
  typedArrows : Bool
  dialect : Dialect
  look : Look
  deriving Inhabited

namespace Cursor

/-- A first line that names an interpreter is read as a comment. -/
def start (dialect : Dialect) (source : List Char) : Cursor :=
  let look := match source with
    | '#' :: '!' :: cs => Look.scanFrom ⟨[], [], 1, false, .line, ['!', '#']⟩ cs
    | _                => Look.scan source 1
  ⟨source, 1, true, true, dialect, look⟩

/-- The same cursor at another position of the text. -/
def moveTo (c : Cursor) (chars : List Char) (line : Nat) : Cursor :=
  { c with chars, line, look := Look.scan chars line }

/-- Behind the next token. -/
def next (c : Cursor) : Cursor :=
  c.moveTo c.look.rest (c.look.line + Leaf.breaks c.look.text)

/-- The same cursor, looking over comments in the style of HTML; `n` bounds their number. -/
def passHtmlComments : Nat → Cursor → Cursor
  | 0, c     => c
  | n + 1, c =>
    if c.look.atHtmlComment then passHtmlComments n { c with look := c.look.passHtmlComment }
    else c

/-- The next word or mark, empty if there is none. -/
def ahead (c : Cursor) : String :=
  match c.look.shape with
  | .word | .mark => c.look.text
  | _             => ""

/-- The next token carries on what stands on the line before it. -/
def carriesOn (c : Cursor) : Bool :=
  match c.look.shape with
  | .backquote => true
  | .mark      =>
    let text := c.look.text
    match text.toList with
    | '+' :: _ => text != "++"
    | '-' :: _ => text != "--"
    | '!' :: _ => text != "!"
    | first :: _ => [',', '.', ';', '*', '%', '>', '<', '=', '?', '^', '|', '&', '/', ':'].contains first
    | []       => false
  | .word      => c.look.text == "in" || c.look.text == "instanceof"
  | .number    => c.look.text.toList.head? == some '.'
  | _          => false

/-- The statement ends before the next token. -/
def halts (c : Cursor) : Bool :=
  c.look.shape == .finish ||
    (c.bound && c.look.fresh && !c.carriesOn && c.ahead != "(" && c.ahead != "[")

/-- The next word or mark after a complete expression. -/
def aheadOperator (c : Cursor) : String := if c.halts then "" else c.ahead

/-- The next word or mark after a complete type. -/
def aheadTypeMark (c : Cursor) : String :=
  if c.bound && c.look.fresh && !c.carriesOn then "" else c.ahead

end Cursor

instance : Grammar.HasTrivia Kind := ⟨Kind.isTrivia⟩

instance : Grammar.Position Cursor where
  remaining c := c.chars.length + 1
  fault c     := ⟨c.look.line, c.look.shape == .finish⟩

end ArchReview.Script

import ArchReview.Decimal.Read
import ArchReview.Json.Basic
import ArchReview.Text.Hex

/-!
# Reading JSON

`Json.parse?` accepts exactly one value with blanks around it. Values may be nested 127 deep.
-/

namespace ArchReview.Json

def isSpace (c : Char) : Bool := c == ' ' || c == '\n' || c == '\t' || c == '\r'

def skip (cs : List Char) : List Char := cs.dropWhile isSpace

/-! ### Strings -/

/-- The code in four digits. -/
def hexFour? (a b c d : Char) : Option Nat :=
  let digits := [a, b, c, d]
  if digits.all Text.isHexDigit then some (Text.inBase 16 digits) else none

def shortEscape? (c : Char) : Option Char :=
  match c with
  | '"'  => some '"'
  | '\\' => some '\\'
  | '/'  => some '/'
  | 'b'  => some '\x08'
  | 'f'  => some '\x0c'
  | 'n'  => some '\n'
  | 'r'  => some '\r'
  | 't'  => some '\t'
  | _    => none

/-- The inside of a string and what follows its closing quote. -/
def stringTail (read : List Char) : List Char → Option (String × List Char)
  | '"' :: cs                               => some (String.ofList read.reverse, cs)
  | '\\' :: 'u' :: a :: b :: c :: d :: rest =>
    match hexFour? a b c d with
    | none      => none
    | some high =>
      if 0xDC00 ≤ high && high ≤ 0xDFFF then none
      else if 0xD800 ≤ high && high ≤ 0xDBFF then
        match rest with
        | '\\' :: 'u' :: a :: b :: c :: d :: rest =>
          match hexFour? a b c d with
          | some low =>
            if 0xDC00 ≤ low && low ≤ 0xDFFF then
              let n := 0x10000 + (high - 0xD800) * 0x400 + (low - 0xDC00)
              stringTail (Char.ofNat n :: read) rest
            else none
          | none     => none
        | _                                       => none
      else stringTail (Char.ofNat high :: read) rest
  | '\\' :: e :: cs                         =>
    match shortEscape? e with
    | some c => stringTail (c :: read) cs
    | none   => none
  | c :: cs                                 =>
    if c.toNat < 32 || c == '\\' then none else stringTail (c :: read) cs
  | []                                      => none

/-! ### Numbers -/

/-- Whether there is a minus, and what follows it. -/
def spanSign : List Char → Bool × List Char
  | '-' :: rest => (true, rest)
  | cs          => (false, cs)

/-- Whole digits: a zero alone, or digits that do not start with one. -/
def spanWhole (cs : List Char) : Option (List Char × List Char) :=
  match cs with
  | '0' :: rest => some (['0'], rest)
  | c :: _      =>
    if c.isDigit then some (cs.takeWhile Char.isDigit, cs.dropWhile Char.isDigit) else none
  | []          => none

/-- Digits after a point, at least one. -/
def spanFraction (cs : List Char) : Option (List Char × List Char) :=
  match cs with
  | '.' :: rest =>
    let ds := rest.takeWhile Char.isDigit
    if ds.isEmpty then none else some ('.' :: ds, rest.dropWhile Char.isDigit)
  | _           => some ([], cs)

def spanPower (cs : List Char) : Option (List Char × List Char) :=
  match cs with
  | e :: rest =>
    if e == 'e' || e == 'E' then
      let (sign, rest) := match rest with
        | '+' :: r => (['+'], r)
        | '-' :: r => (['-'], r)
        | r        => ([], r)
      let ds := rest.takeWhile Char.isDigit
      if ds.isEmpty then none
      else some (e :: sign ++ ds, rest.dropWhile Char.isDigit)
    else some ([], cs)
  | []        => some ([], cs)

def realOf? (negated : Bool) (text : List Char) : Option Json :=
  (Decimal.read? (String.ofList text)).bind fun x =>
    if x.isFinite then some (real (if negated then -x else x)) else none

def number? (cs : List Char) : Option (Json × List Char) := do
  let (negated, cs) := spanSign cs
  let (whole, cs) ← spanWhole cs
  let (fraction, cs) ← spanFraction cs
  let (power, cs) ← spanPower cs
  if fraction.isEmpty && power.isEmpty then
    let n := Decimal.digitValue whole
    if !negated && n < Nat.pow 2 64 then return (natural n, cs)
    else if negated && 0 < n && n ≤ Nat.pow 2 63 then return (negative n, cs)
  let value ← realOf? negated (whole ++ fraction ++ power)
  return (value, cs)

/-! ### Values -/

mutual

/-- A value; `depth` bounds the nesting and `fuel` the number of steps. -/
def value? (fuel depth : Nat) (cs : List Char) : Option (Json × List Char) :=
  match fuel with
  | 0        => none
  | fuel + 1 =>
    match skip cs with
    | 'n' :: 'u' :: 'l' :: 'l' :: rest        => some (null, rest)
    | 't' :: 'r' :: 'u' :: 'e' :: rest        => some (bool true, rest)
    | 'f' :: 'a' :: 'l' :: 's' :: 'e' :: rest => some (bool false, rest)
    | '"' :: rest                             => (stringTail [] rest).map fun (s, r) => (string s, r)
    | '[' :: rest                             =>
      match depth with
      | 0         => none
      | depth + 1 =>
        match skip rest with
        | ']' :: rest => some (array [], rest)
        | rest        => (items? fuel depth rest).map fun (vs, r) => (array vs, r)
    | '\x7b' :: rest                          =>
      match depth with
      | 0         => none
      | depth + 1 =>
        match skip rest with
        | '\x7d' :: rest => some (object [], rest)
        | rest           => (members? fuel depth rest).map fun (ms, r) => (object ms, r)
    | rest                                    => number? rest

/-- The items of an array that has some, and its closing bracket. -/
def items? (fuel depth : Nat) (cs : List Char) : Option (List Json × List Char) :=
  match fuel with
  | 0        => none
  | fuel + 1 =>
    match value? fuel depth cs with
    | none           => none
    | some (v, rest) =>
      match skip rest with
      | ',' :: rest => (items? fuel depth rest).map fun (vs, r) => (v :: vs, r)
      | ']' :: rest => some ([v], rest)
      | _           => none

/-- The members of an object that has some, and its closing bracket. -/
def members? (fuel depth : Nat) (cs : List Char) : Option (List (String × Json) × List Char) :=
  match fuel with
  | 0        => none
  | fuel + 1 =>
    match skip cs with
    | '"' :: rest =>
      match stringTail [] rest with
      | none             => none
      | some (key, rest) =>
        match skip rest with
        | ':' :: rest =>
          match value? fuel depth rest with
          | none           => none
          | some (v, rest) =>
            match skip rest with
            | ',' :: rest    =>
              (members? fuel depth rest).map fun (ms, r) => ((key, v) :: ms, r)
            | '\x7d' :: rest => some ([(key, v)], rest)
            | _              => none
        | _           => none
    | _           => none

end

def parse? (text : String) : Option Json :=
  let cs := text.toList
  match value? (2 * cs.length + 2) 127 cs with
  | some (v, rest) => if (skip rest).isEmpty then some v else none
  | none           => none

end ArchReview.Json

import ArchReview.Decimal.Read
import ArchReview.Text.Hex
import ArchReview.Toml.Basic

/-!
# Numbers, dates and words

The values that are written without quotes or brackets. `scalar?` reads one from its whole text.
-/

namespace ArchReview.Toml

/-! ### Numbers -/

/-- Digits with single underscores between them, without the underscores. -/
def digits? (isDigit : Char → Bool) (cs : List Char) : Option (List Char) :=
  let runs := cs.splitOn '_'
  if runs.all fun run => !run.isEmpty && run.all isDigit then some runs.flatten else none

/-- Decimal digits without a zero that only fills up. -/
def wholeDigits? (cs : List Char) : Option (List Char) :=
  (digits? Char.isDigit cs).bind fun ds =>
    match ds with
    | '0' :: _ :: _ => none
    | ds            => some ds

/-- A sign and what follows it. -/
def sign : List Char → Bool × List Char
  | '-' :: cs => (true, cs)
  | '+' :: cs => (false, cs)
  | cs        => (false, cs)

def integer? (cs : List Char) : Option Int :=
  match cs with
  | '0' :: 'x' :: ds => (digits? Text.isHexDigit ds).map fun ds => ↑(Text.inBase 16 ds)
  | '0' :: 'o' :: ds =>
    (digits? (fun c => '0' ≤ c && c ≤ '7') ds).map fun ds => ↑(Text.inBase 8 ds)
  | '0' :: 'b' :: ds => (digits? (fun c => c == '0' || c == '1') ds).map fun ds => ↑(Text.inBase 2 ds)
  | cs               =>
    let (negated, ds) := sign cs
    (wholeDigits? ds).map fun ds => if negated then -↑(Text.inBase 10 ds) else ↑(Text.inBase 10 ds)

/-- An exponent after its mark, without underscores. -/
def exponent? (cs : List Char) : Option (List Char) :=
  let (negated, ds) := sign cs
  (digits? Char.isDigit ds).map fun ds => if negated then '-' :: ds else ds

/-- A number with a fraction, an exponent or both. -/
def float? (cs : List Char) : Option Float :=
  let (negated, cs) := sign cs
  let signed (x : Float) := if negated then -x else x
  match cs with
  | ['i', 'n', 'f'] => some (signed (1.0 / 0.0))
  | ['n', 'a', 'n'] => some (0.0 / 0.0)
  | cs              => do
    let isMark (c : Char) := c == 'e' || c == 'E'
    let lead := cs.takeWhile fun c => !isMark c
    let power ← match cs.dropWhile fun c => !isMark c with
      | []      => some []
      | _ :: ds => (exponent? ds).map fun ds => 'e' :: ds
    let whole ← wholeDigits? (lead.takeWhile (· != '.'))
    let fraction ← match lead.dropWhile (· != '.') with
      | []      => some []
      | _ :: ds => (digits? Char.isDigit ds).map fun ds => '.' :: ds
    if fraction.isEmpty && power.isEmpty then none
    else (Decimal.read? (String.ofList (whole ++ fraction ++ power))).map signed

/-! ### Dates and times -/

/-- Exactly two digits between bounds, and what follows. -/
def twoDigits? (low high : Nat) : List Char → Option (Nat × List Char)
  | a :: b :: rest =>
    if a.isDigit && b.isDigit then
      let n := Text.inBase 10 [a, b]
      if low ≤ n && n ≤ high then some (n, rest) else none
    else none
  | _ => none

def daysIn (year month : Nat) : Nat :=
  if month == 2 then
    if year % 4 == 0 && (year % 100 != 0 || year % 400 == 0) then 29 else 28
  else if [4, 6, 9, 11].contains month then 30
  else 31

/-- What follows a date. -/
def afterDate? (cs : List Char) : Option (List Char) := do
  let (century, cs) ← twoDigits? 0 99 cs
  let (years, cs) ← twoDigits? 0 99 cs
  let '-' :: cs := cs | none
  let (month, cs) ← twoDigits? 1 12 cs
  let '-' :: cs := cs | none
  let (_, cs) ← twoDigits? 1 (daysIn (century * 100 + years) month) cs
  return cs

/-- What follows a time of day. Seconds may be left out. -/
def afterTime? (cs : List Char) : Option (List Char) := do
  let (_, cs) ← twoDigits? 0 23 cs
  let ':' :: cs := cs | none
  let (_, cs) ← twoDigits? 0 59 cs
  match cs with
  | ':' :: cs => do
    let (_, cs) ← twoDigits? 0 60 cs
    match cs with
    | '.' :: ds => if ds.head?.any Char.isDigit then some (ds.dropWhile Char.isDigit) else none
    | cs        => some cs
  | cs => some cs

/-- A whole offset from universal time. -/
def isOffset : List Char → Bool
  | ['Z'] | ['z'] => true
  | c :: cs       => (c == '+' || c == '-') &&
    match twoDigits? 0 23 cs with
    | some (_, ':' :: cs) => (twoDigits? 0 59 cs).any fun r => r.2.isEmpty
    | _                   => false
  | []            => false

def isMoment (cs : List Char) : Bool :=
  match afterDate? cs with
  | some []        => true
  | some (c :: cs) =>
    (c == 'T' || c == 't' || c == ' ') &&
      (afterTime? cs).any fun rest => rest.isEmpty || isOffset rest
  | none           => (afterTime? cs).any List.isEmpty

/-! ### Scalars -/

/-- Whole numbers beyond 128 bits are refused. -/
def inRange (n : Int) : Bool := -Int.ofNat (Nat.pow 2 127) ≤ n && n < Int.ofNat (Nat.pow 2 128)

def scalar? (cs : List Char) : Option Toml :=
  match String.ofList cs with
  | "true"  => some (.boolean true)
  | "false" => some (.boolean false)
  | text    =>
    match integer? cs with
    | some n => if inRange n then some (.integer n) else none
    | none   =>
      match float? cs with
      | some x => some (.float x)
      | none   => if isMoment cs then some (.moment text) else none

end ArchReview.Toml

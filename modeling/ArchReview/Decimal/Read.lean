/-!
# Reading decimals

The number that a decimal text stands for, rounded to the nearest floating-point number.
-/

namespace ArchReview.Decimal

def digitValue (digits : List Char) : Nat :=
  digits.foldl (fun n c => 10 * n + (c.toNat - '0'.toNat)) 0

/-- `digits * 10 ^ exponent`; exponents far out of range are decided without computing powers. -/
def scientific (digits : Nat) (exponent : Int) : Float :=
  let size := ((toString digits).length : Int)
  if digits == 0 then 0.0
  else if 400 < exponent + size then 1.0 / 0.0
  else if exponent + size < -400 then 0.0
  else if 0 ≤ exponent then Float.ofScientific digits false exponent.toNat
  else Float.ofScientific digits true (-exponent).toNat

/-- An exponent: a sign and at least one digit. -/
def readExponent? (cs : List Char) : Option Int :=
  let (negative, digits) := match cs with
    | '+' :: ds => (false, ds)
    | '-' :: ds => (true, ds)
    | ds        => (false, ds)
  if digits.isEmpty || !digits.all Char.isDigit then none
  else
    let n : Int := digitValue digits
    some (if negative then -n else n)

/-- A number without sign: digits with at most one point and at least one digit, and perhaps an
exponent. -/
def readUnsigned? (cs : List Char) : Option Float :=
  let whole := cs.takeWhile Char.isDigit
  let rest := cs.dropWhile Char.isDigit
  let (fraction, rest) := match rest with
    | '.' :: r => (r.takeWhile Char.isDigit, r.dropWhile Char.isDigit)
    | r        => ([], r)
  if whole.isEmpty && fraction.isEmpty then none
  else
    let value := fun exponent =>
      some (scientific (digitValue (whole ++ fraction)) (exponent - (fraction.length : Int)))
    match rest with
    | []     => value 0
    | e :: r => if e == 'e' || e == 'E' then (readExponent? r).bind value else none

/-- A number with an optional sign. -/
def read? (text : String) : Option Float :=
  match text.toList with
  | '-' :: cs => (readUnsigned? cs).map fun x => -x
  | '+' :: cs => readUnsigned? cs
  | cs        => readUnsigned? cs

end ArchReview.Decimal

/-!
# Binary fractions

A finite floating-point number is a whole number times a power of two. The decimal texts of this
library are computed from that form with whole numbers only.
-/

namespace ArchReview.Decimal

/-- The parts of a floating-point number. -/
inductive Parts where
  /-- `mantissa * 2 ^ exponent`, with its sign. `edge` holds where the gap to the next smaller
  number is half the gap to the next larger one. -/
  | finite (negative : Bool) (mantissa : Nat) (exponent : Int) (edge : Bool)
  | infinite (negative : Bool)
  | notANumber
  deriving DecidableEq, Repr

/-- The parts that 64 bits encode. -/
def partsOfBits (bits : Nat) : Parts :=
  let negative := bits / Nat.pow 2 63 == 1
  let field : Nat := bits / Nat.pow 2 52 % Nat.pow 2 11
  let fraction : Nat := bits % Nat.pow 2 52
  if field == 2047 then (if fraction == 0 then .infinite negative else .notANumber)
  else if field == 0 then .finite negative fraction (-1074) false
  else .finite negative (Nat.pow 2 52 + fraction) ((field : Int) - 1075)
    (fraction == 0 && field != 1)

def parts (x : Float) : Parts := partsOfBits x.toBits.toNat

/-- `numerator / denominator` for `mantissa * 2 ^ exponent`. -/
def ratio (mantissa : Nat) (exponent : Int) : Nat × Nat :=
  if 0 ≤ exponent then (mantissa * Nat.pow 2 exponent.toNat, 1)
  else (mantissa, Nat.pow 2 (-exponent).toNat)

/-- A quotient rounded to the nearest whole number, a half to the even one. -/
def roundDiv (num den : Nat) : Nat :=
  let q := num / den
  let r := num % den
  if 2 * r < den then q
  else if den < 2 * r then q + 1
  else if q % 2 == 0 then q else q + 1

end ArchReview.Decimal

import ArchReview.Decimal.Binary

/-!
# Fixed numbers of places

A number with a given number of decimal places, rounded from its exact value, a half to the even
neighbour.
-/

namespace ArchReview.Decimal

/-- `text` filled up with zeros on the left. -/
def padLeft (width : Nat) (text : String) : String :=
  String.ofList (List.replicate (width - text.length) '0') ++ text

/-- A whole number of `10 ^ -places`, written out. -/
def placeText (places units : Nat) : String :=
  if places == 0 then toString units
  else
    let unit := Nat.pow 10 places
    toString (units / unit) ++ "." ++ padLeft places (toString (units % unit))

def fixed (places : Nat) (x : Float) : String :=
  match parts x with
  | .finite negative m e _ =>
    let (num, den) := ratio m e
    (if negative then "-" else "") ++ placeText places (roundDiv (num * Nat.pow 10 places) den)
  | .infinite negative     => if negative then "-inf" else "inf"
  | .notANumber            => "NaN"

end ArchReview.Decimal

import ArchReview.Decimal.Fixed

/-!
# Shortest decimals

The shortest decimal of a number is the one with the fewest digits among those that read back as
the number, and the nearest to it of these.
-/

namespace ArchReview.Decimal

/-- `digits * 10 ^ exponent`. -/
structure Scientific where
  digits : Nat
  exponent : Int
  deriving DecidableEq, Repr

/-- Scales a quotient by a power of ten. -/
def scale (power : Int) (num den : Nat) : Nat × Nat :=
  if 0 ≤ power then (num * Nat.pow 10 power.toNat, den)
  else (num, den * Nat.pow 10 (-power).toNat)

/-- The decimal with the given exponent that reads back as the number, if there is one. Of two it
is the nearer, of two equally near the even one. -/
def onGrid? (m : Nat) (e : Int) (edge : Bool) (exponent : Int) : Option Scientific :=
  -- everything in quarters of a unit of the mantissa
  let (num, den) := ratio 1 (e - 2)
  let (num, den) := scale (-exponent) num den
  let value := 4 * m * num
  let low := (4 * m - (if edge then 1 else 2)) * num
  let high := (4 * m + 2) * num
  let inside := fun d =>
    if m % 2 == 0 then low ≤ d * den && d * den ≤ high else low < d * den && d * den < high
  let down := value / den
  let up := down + 1
  let candidates := [down, up].filter fun d => d != 0 && inside d
  match candidates with
  | []     => none
  | [d]    => some ⟨d, exponent⟩
  | _      =>
    let toDown := value - down * den
    let toUp := up * den - value
    if toDown < toUp then some ⟨down, exponent⟩
    else if toUp < toDown then some ⟨up, exponent⟩
    else some ⟨if down % 2 == 0 then down else up, exponent⟩

/-- The first exponent, going down, whose grid holds a decimal that reads back. -/
def searchGrid (m : Nat) (e : Int) (edge : Bool) : Nat → Int → Scientific
  | 0, exponent        => ⟨0, exponent⟩
  | fuel + 1, exponent =>
    match onGrid? m e edge exponent with
    | some s => s
    | none   => searchGrid m e edge fuel (exponent - 1)

/-- The shortest decimal of `m * 2 ^ e`. -/
def shortest (m : Nat) (e : Int) (edge : Bool) : Scientific :=
  if m == 0 then ⟨0, 0⟩
  else
    let top := ((e + (Nat.log2 m : Int) + 1) * 30103) / 100000 + 1
    searchGrid m e edge 30 top

/-! ### Texts -/

/-- Digits with a point after the first `whole` of them; zeros fill both sides. -/
def positional (s : Scientific) (fraction : Bool) : String :=
  let digits := toString s.digits
  if s.digits == 0 then (if fraction then "0.0" else "0")
  else if 0 ≤ s.exponent then
    digits ++ String.ofList (List.replicate s.exponent.toNat '0') ++ (if fraction then ".0" else "")
  else
    let places := (-s.exponent).toNat
    let padded := padLeft (places + 1) digits
    let whole := padded.length - places
    String.ofList (padded.toList.take whole) ++ "." ++ String.ofList (padded.toList.drop whole)

/-- One digit before the point, and an exponent with its sign. -/
def exponential (s : Scientific) : String :=
  let digits := (toString s.digits).toList
  let power := s.exponent + (digits.length : Int) - 1
  let mantissa := match digits with
    | [d]     => [d]
    | d :: ds => d :: '.' :: ds
    | []      => ['0']
  String.ofList mantissa ++ "e" ++ (if power < 0 then "-" else "+") ++ toString power.natAbs

/-- Power of ten of the first digit. -/
def Scientific.magnitude (s : Scientific) : Int :=
  s.exponent + ((toString s.digits).length : Int) - 1

/-- The shortest decimal, always positional, without a fraction if it is whole. -/
def plain (x : Float) : String :=
  match parts x with
  | .finite negative m e edge =>
    (if negative then "-" else "") ++ positional (shortest m e edge) false
  | .infinite negative        => if negative then "-inf" else "inf"
  | .notANumber               => "NaN"

/-- The shortest decimal with a fraction; with an exponent outside `1e-5` to `1e16`. -/
def tagged (x : Float) : String :=
  match parts x with
  | .finite negative m e edge =>
    let s := shortest m e edge
    let body :=
      if s.digits == 0 || (-5 ≤ s.magnitude && s.magnitude ≤ 15) then positional s true
      else exponential s
    (if negative then "-" else "") ++ body
  | .infinite _               => "null"
  | .notANumber               => "null"

end ArchReview.Decimal

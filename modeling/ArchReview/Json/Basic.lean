/-!
# JSON values

Members of an object keep their order. A number that is written without fraction and exponent
and fits 64 bits is a whole number, any other a floating-point number.
-/

namespace ArchReview

inductive Json where
  | null
  | bool (b : Bool)
  | natural (n : Nat)
  | negative (n : Nat)
  | real (x : Float)
  | string (s : String)
  | array (items : List Json)
  | object (members : List (String × Json))
  deriving Inhabited, Repr

namespace Json

/-- The first member of an object with a key. -/
def member? (key : String) : Json → Option Json
  | object members => (members.find? fun m => m.1 == key).map fun m => m.2
  | _              => none

/-- `null` for nothing. -/
def optional {α : Type} (encode : α → Json) : Option α → Json
  | none   => null
  | some a => encode a

def strings (texts : List String) : Json := array (texts.map string)

end Json

end ArchReview

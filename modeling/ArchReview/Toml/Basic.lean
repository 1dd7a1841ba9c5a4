/-!
# TOML values

A document is a table. Dates and times are kept as written.
-/

namespace ArchReview

inductive Toml where
  | string (text : String)
  | integer (n : Int)
  | float (x : Float)
  | boolean (b : Bool)
  | moment (text : String)
  | array (items : List Toml)
  | table (entries : List (String × Toml))
  deriving Inhabited, Repr

namespace Toml

/-- The entry of a table under a key. -/
def named? (key : String) (entries : List (String × Toml)) : Option Toml :=
  (entries.find? fun e => e.1 == key).map fun e => e.2

end Toml

end ArchReview

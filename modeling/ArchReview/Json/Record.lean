import ArchReview.Json.Basic

/-!
# Reading records

A record is written as an object, whose members may come in any order and among others, or as an
array of all its fields in order. Reading is strict: a field of the wrong type, a missing field
or one that is given twice makes the whole unreadable.
-/

namespace ArchReview.Json

/-! ### Plain values -/

def bool? : Json → Option Bool
  | bool b => some b
  | _      => none

def natural? : Json → Option Nat
  | natural n => some n
  | _         => none

def string? : Json → Option String
  | string s => some s
  | _        => none

def list? {α : Type} (read? : Json → Option α) : Json → Option (List α)
  | array items => items.mapM read?
  | _           => none

/-- `null` for nothing. -/
def option? {α : Type} (read? : Json → Option α) : Json → Option (Option α)
  | null => some none
  | v    => (read? v).map some

/-- One of some words; it may also be the only key of an object, with `null` under it. -/
def word? {α : Type} (read? : String → Option α) : Json → Option α
  | string s           => read? s
  | object [(s, null)] => read? s
  | _                  => none

/-! ### Fields -/

/-- The fields of a record by name. -/
abbrev Fields := List (String × Json)

def distinctKeys : Fields → Bool
  | []      => true
  | f :: fs => !(fs.any fun g => g.1 == f.1) && distinctKeys fs

/-- The fields of a value that is a record with the given names. -/
def fields? (names : List String) : Json → Option Fields
  | object members =>
    let known := members.filter fun m => names.contains m.1
    if distinctKeys known then some known else none
  | array items    => if items.length == names.length then some (names.zip items) else none
  | _              => none

namespace Fields

def get? (fs : Fields) (name : String) : Option Json :=
  (fs.find? fun f => f.1 == name).map fun f => f.2

/-- A field that has to be there. -/
def required? {α : Type} (fs : Fields) (name : String) (read? : Json → Option α) : Option α :=
  (fs.get? name).bind read?

/-- A field that may be left out or `null`. -/
def optional? {α : Type} (fs : Fields) (name : String) (read? : Json → Option α) :
    Option (Option α) :=
  match fs.get? name with
  | none   => some none
  | some v => option? read? v

end Fields

end ArchReview.Json

import ArchReview.Text.Basic

/-!
# Ordered sets and tables of names

A set of names is a strictly ascending list, a table an association list with strictly ascending
keys. Names are compared by code point.
-/

namespace ArchReview.Text

/-- Puts a name into a set. -/
def insertName (name : String) : List String → List String
  | []      => [name]
  | x :: xs =>
    match compareStrings name x with
    | .lt => name :: x :: xs
    | .eq => x :: xs
    | .gt => x :: insertName name xs

/-- The set of the names in a list. -/
def nameSet (names : List String) : List String :=
  names.foldl (fun set name => insertName name set) []

/-- Puts an entry into a table, in place of one with the same key. -/
def insertEntry {α : Type} (key : String) (value : α) : List (String × α) → List (String × α)
  | []      => [(key, value)]
  | e :: es =>
    match compareStrings key e.1 with
    | .lt => (key, value) :: e :: es
    | .eq => (key, value) :: es
    | .gt => e :: insertEntry key value es

/-- The table of some entries; of two with one key the later counts. -/
def table {α : Type} (entries : List (String × α)) : List (String × α) :=
  entries.foldl (fun t e => insertEntry e.1 e.2 t) []

end ArchReview.Text

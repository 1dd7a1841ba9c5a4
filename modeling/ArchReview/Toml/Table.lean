import ArchReview.Toml.Basic

/-!
# Building tables

A table may be begun in several ways: by a header, by a header below it, by a dotted key. How it
came about decides what may still be added: a header names a table only once, and dotted keys
reach into no table that a header has named. All additions answer `none` when they clash.
-/

namespace ArchReview.Toml

/-- How a table came about. -/
inductive Origin where
  /-- Named by a header. -/
  | header
  /-- On the way to a table named by a header. -/
  | implied
  /-- On the way to a dotted key. -/
  | dotted
  deriving DecidableEq, Repr, Inhabited

/-- What a key stands for while a document is read. -/
inductive Node where
  | value (v : Toml)
  | table (origin : Origin) (entries : List (String × Node))
  /-- A list of tables, the one that is still open first. -/
  | tables (last : List (String × Node)) (earlier : List (List (String × Node)))
  deriving Inhabited, Repr

abbrev Entries := List (String × Node)

namespace Entries

def find? (es : Entries) (key : String) : Option Node :=
  (List.find? (fun e => e.1 == key) es).map fun e => e.2

/-- Puts a node under a key, in place of the one that is there. -/
def set (es : Entries) (key : String) (node : Node) : Entries :=
  if es.any fun e => e.1 == key then es.map fun e => if e.1 == key then (key, node) else e
  else es ++ [(key, node)]

/-- Adds a value under a dotted key. -/
def addValue (v : Toml) : List String → Entries → Option Entries
  | [], _             => none
  | [key], es         =>
    match es.find? key with
    | none   => some (es.set key (.value v))
    | some _ => none
  | key :: keys, es =>
    match es.find? key with
    | none                     =>
      (addValue v keys []).map fun inner => es.set key (.table .dotted inner)
    | some (.table origin old) =>
      if origin == .header then none
      else (addValue v keys old).map fun inner => es.set key (.table origin inner)
    | some _                   => none

/-- Changes the entries that a header names; lists of tables lend their last one. -/
def under (change : Entries → Option Entries) : List String → Entries → Option Entries
  | [], es          => change es
  | key :: keys, es =>
    match es.find? key with
    | none                       =>
      (under change keys []).map fun inner => es.set key (.table .implied inner)
    | some (.table origin old)   =>
      (under change keys old).map fun inner => es.set key (.table origin inner)
    | some (.tables old earlier) =>
      (under change keys old).map fun inner => es.set key (.tables inner earlier)
    | some (.value _)            => none

/-- Names a table by its last key. -/
def nameTable (key : String) (es : Entries) : Option Entries :=
  match es.find? key with
  | none                       => some (es.set key (.table .header []))
  | some (.table .implied old) => some (es.set key (.table .header old))
  | some _                     => none

/-- Begins one more table of a list. -/
def beginTable (key : String) (es : Entries) : Option Entries :=
  match es.find? key with
  | none                        => some (es.set key (.tables [] []))
  | some (.tables last earlier) => some (es.set key (.tables [] (last :: earlier)))
  | some _                      => none

/-- Applies a change to the table that holds the last key of a header. -/
def atHeader (change : String → Entries → Option Entries) (header : List String) (es : Entries) :
    Option Entries :=
  match header.getLast? with
  | none     => none
  | some key => under (change key) header.dropLast es

end Entries

/-! ### Finished tables -/

mutual
def Node.finish : Node → Toml
  | .value v             => v
  | .table _ es          => .table (finishEntries es)
  | .tables last earlier => .array (finishTables earlier [.table (finishEntries last)])

def finishEntries : List (String × Node) → List (String × Toml)
  | []             => []
  | (k, node) :: r => (k, node.finish) :: finishEntries r

/-- Tables from the last to the first, put in front of those that follow them. -/
def finishTables : List (List (String × Node)) → List Toml → List Toml
  | [], later            => later
  | es :: earlier, later => finishTables earlier (.table (finishEntries es) :: later)
end

end ArchReview.Toml

import ArchReview.Text.Basic

/-!
# Paths

A path is kept as it was written and shown that way; two spellings are the same path when their
components agree. `components` reads a path, `compare` orders paths component by component, and
`normalize` resolves `.` and `..` by spelling alone.
-/

namespace ArchReview

/-- One step of a path. -/
inductive Component where
  | root
  | current
  | parent
  | name (text : String)
  deriving DecidableEq, Repr, Inhabited

/-- A path as written, with `/` between its steps. -/
structure Path where
  text : String
  deriving DecidableEq, Repr, Inhabited

namespace Component

/-- Root, then `.`, then `..`, then names by code point. -/
def compare : Component → Component → Ordering
  | root, root       => .eq
  | root, _          => .lt
  | _, root          => .gt
  | current, current => .eq
  | current, _       => .lt
  | _, current       => .gt
  | parent, parent   => .eq
  | parent, _        => .lt
  | _, parent        => .gt
  | name a, name b   => Text.compareStrings a b

def text : Component → String
  | root    => "/"
  | current => "."
  | parent  => ".."
  | name s  => s

end Component

namespace Path

/-- The steps between separators: empty ones and `.` say nothing. -/
def stepsOf (pieces : List (List Char)) : List Component :=
  pieces.filterMap fun piece =>
    match piece with
    | []         => none
    | ['.']      => none
    | ['.', '.'] => some .parent
    | cs         => some (.name (String.ofList cs))

/-- The components of a path. A `.` counts only at the start of a relative path. -/
def components (p : Path) : List Component :=
  match p.text.toList with
  | '/' :: rest => .root :: stepsOf (Text.splitWhere (· == '/') rest)
  | cs          =>
    match Text.splitWhere (· == '/') cs with
    | ['.'] :: rest => .current :: stepsOf rest
    | pieces        => stepsOf pieces

/-- The same path, perhaps spelled differently. -/
def same (p q : Path) : Bool := p.components == q.components

def compareComponents : List Component → List Component → Ordering
  | [], []           => .eq
  | [], _ :: _       => .lt
  | _ :: _, []       => .gt
  | a :: as, b :: bs => (a.compare b).then (compareComponents as bs)

/-- Component by component, so that `a/b` comes before `a-b`. -/
def compare (p q : Path) : Ordering := compareComponents p.components q.components

def le (p q : Path) : Bool := p.compare q != .gt

def isAbsolute (p : Path) : Bool := p.text.toList.head? == some '/'

/-- The text of a component list. -/
def ofComponents : List Component → Path
  | .root :: rest => ⟨"/" ++ "/".intercalate (rest.map Component.text)⟩
  | comps         => ⟨"/".intercalate (comps.map Component.text)⟩

/-- `q` below `p`; an absolute `q` stands for itself. -/
def join (p q : Path) : Path :=
  if q.isAbsolute then q
  else match p.text.toList.getLast? with
    | none     => q
    | some '/' => ⟨p.text ++ q.text⟩
    | some _   => ⟨p.text ++ "/" ++ q.text⟩

/-- The directory of a file, empty for a bare name. -/
def directory (p : Path) : Path := ofComponents p.components.dropLast

/-! ### Names and extensions -/

/-- The last component, if it is a name. -/
def fileName? (p : Path) : Option String :=
  match p.components.getLast? with
  | some (.name s) => some s
  | _              => none

/-- A file name cut at its last dot: stem and extension. A dot in first place starts no
extension. -/
def cutName (name : String) : String × Option String :=
  let cs := name.toList
  let ext := (cs.reverse.takeWhile (· != '.')).reverse
  let stem := cs.take (cs.length - ext.length - 1)
  if ext.length == cs.length || stem.isEmpty || name == ".." then (name, none)
  else (String.ofList stem, some (String.ofList ext))

def extension? (p : Path) : Option String := p.fileName?.bind fun n => (cutName n).2

def stem? (p : Path) : Option String := p.fileName?.map fun n => (cutName n).1

/-- The path with its extension replaced, or removed when `ext` is empty. A path without a file
name is left alone. -/
def withExtension (p : Path) (ext : String) : Path :=
  match p.stem? with
  | none      => p
  | some stem =>
    let name := if ext.isEmpty then stem else stem ++ "." ++ ext
    ofComponents (p.components.dropLast ++ [.name name])

/-! ### Normal form -/

/-- One step of `normalize` on the reversed list of steps kept so far. -/
def normalStep (absolute : Bool) (kept : List Component) : Component → List Component
  | .root | .current => kept
  | .name s          => .name s :: kept
  | .parent          =>
    match kept with
    | .name _ :: rest => rest
    | kept            => if absolute then kept else .parent :: kept

/-- The steps of a path after resolving `.` and `..`, last step first. -/
def normalSteps (p : Path) : List Component :=
  p.components.foldl (normalStep p.isAbsolute) []

/-- The canonical spelling: no `.`, no `..` after a name, none above the root. -/
def normalize (p : Path) : Path :=
  let steps := p.normalSteps.reverse
  ofComponents (if p.isAbsolute then .root :: steps else steps)

end Path

end ArchReview

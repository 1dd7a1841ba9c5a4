import ArchReview.Workspace.Access

/-!
# Files in memory

A workspace is a tree of folders and files with a current directory in it.
-/

namespace ArchReview

inductive Entry where
  | file (content : ByteArray)
  | folder (entries : List (String × Entry))
  deriving Inhabited

namespace Entry

def kind : Entry → EntryKind
  | file _   => .file
  | folder _ => .folder

/-- The entry of a folder with a name. -/
def child? (name : String) : Entry → Option Entry
  | folder entries => (entries.find? fun e => e.1 == name).map fun e => e.2
  | file _         => none

/-- What lies below an entry along some names. -/
def at? : List String → Entry → Option Entry
  | [], e            => some e
  | name :: names, e => (e.child? name).bind (at? names)

/-- Puts an entry under a name, in place of the one that is there. -/
def setChild (e : Entry) (name : String) (new : Entry) : Entry :=
  match e with
  | folder entries =>
    if entries.any fun e => e.1 == name then
      folder (entries.map fun e => if e.1 == name then (name, new) else e)
    else folder (entries ++ [(name, new)])
  | file content   => file content

/-- Puts an entry below another along some names; folders on the way are made. -/
def place (new : Entry) : List String → Entry → Entry
  | [], _            => new
  | name :: names, e => e.setChild name (place new names ((e.child? name).getD (folder [])))

end Entry

structure Workspace where
  root : Entry
  /-- The names from the root to the current directory. -/
  current : List String
  deriving Inhabited

namespace Workspace

/-- Follows one component from a place, last name first. -/
def step (root : Entry) (place : List String) : Component → Except FileFault (List String)
  | .root    => .ok []
  | .current => .ok place
  | .parent  => .ok place.tail
  | .name s  =>
    match root.at? place.reverse with
    | some (.folder entries) =>
      if entries.any fun e => e.1 == s then .ok (s :: place) else .error .notFound
    | some (.file _)         => .error .notDirectory
    | none                   => .error .notFound

def follow (root : Entry) (place : List String) (steps : List Component) :
    Except FileFault (List String) :=
  steps.foldlM (step root) place

/-- The names from the root to something that exists. -/
def resolve (w : Workspace) (path : Path) : Except FileFault (List String) :=
  (follow w.root w.current.reverse path.components).map List.reverse

def absolute (names : List String) : Path := ⟨"/" ++ "/".intercalate names⟩

def read (w : Workspace) (path : Path) : Except FileFault ByteArray := do
  match w.root.at? (← w.resolve path) with
  | some (.file content) => .ok content
  | some (.folder _)     => .error .isDirectory
  | none                 => .error .notFound

/-- The names from the root to where a path may be written. -/
def target (w : Workspace) (path : Path) : Except FileFault (List String) := do
  match path.components.reverse with
  | .name s :: rest =>
    let folder ← follow w.root w.current.reverse rest.reverse
    match w.root.at? folder.reverse with
    | some (.folder _) => .ok (folder.reverse ++ [s])
    | some (.file _)   => .error .notDirectory
    | none             => .error .notFound
  | _               => .error .isDirectory

def write (w : Workspace) (path : Path) (text : String) : Except FileFault Workspace := do
  let names ← w.target path
  match w.root.at? names with
  | some (.folder _) => .error .isDirectory
  | _                => .ok { w with root := Entry.place (.file text.toUTF8) names w.root }

def found? (w : Workspace) (path : Path) : Option Entry :=
  match w.resolve path with
  | .ok names => w.root.at? names
  | .error _  => none

/-- Access to the files of a workspace. -/
def access : FileAccess (StateM Workspace) where
  canonical? path := return match (← get).resolve path with
    | .ok names => some (absolute names)
    | .error _  => none
  kind? path := return ((← get).found? path).map Entry.kind
  list path := return match (← get).found? path with
    | some (.folder entries) => entries.map fun e => e.1
    | _                      => []
  read path := return (← get).read path
  write path text := do
    match (← get).write path text with
    | .ok w    => set w; return .ok ()
    | .error e => return .error e

mutual
/-- The files below an entry with their paths. -/
def filesOf (path : List String) : Entry → List (List String × ByteArray)
  | .file content   => [(path, content)]
  | .folder entries => filesOfAll path entries

def filesOfAll (path : List String) : List (String × Entry) → List (List String × ByteArray)
  | []                => []
  | (name, e) :: rest => filesOf (path ++ [name]) e ++ filesOfAll path rest
end

end Workspace

end ArchReview

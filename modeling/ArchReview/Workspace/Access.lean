import ArchReview.Path.Basic

/-!
# Access to files

The parts of a review that look at directories are written against a record of operations, over
any monad. `Workspace.Memory` gives the record for a tree of files in memory.
-/

namespace ArchReview

/-- Why an operation on a file failed. -/
inductive FileFault where
  | notFound
  | notDirectory
  | isDirectory
  | notText
  | other (reason : String)
  deriving DecidableEq, Repr, Inhabited

def FileFault.message : FileFault → String
  | notFound     => "No such file or directory (os error 2)"
  | notDirectory => "Not a directory (os error 20)"
  | isDirectory  => "Is a directory (os error 21)"
  | notText      => "stream did not contain valid UTF-8"
  | other reason => reason

inductive EntryKind where
  | file
  | folder
  deriving DecidableEq, Repr, Inhabited

structure FileAccess (m : Type → Type) where
  /-- The absolute path of something that exists. -/
  canonical? : Path → m (Option Path)
  /-- What is at a path. -/
  kind? : Path → m (Option EntryKind)
  /-- The names in a directory, none if it cannot be read. -/
  list : Path → m (List String)
  read : Path → m (Except FileFault ByteArray)
  write : Path → String → m (Except FileFault Unit)

namespace FileAccess

variable {m : Type → Type} [Monad m]

def exists? (fs : FileAccess m) (path : Path) : m Bool :=
  return (← fs.kind? path).isSome

/-- The content of a file as text. -/
def readText (fs : FileAccess m) (path : Path) : m (Except FileFault String) := do
  match ← fs.read path with
  | .error e  => return .error e
  | .ok bytes =>
    match String.fromUTF8? bytes with
    | some text => return .ok text
    | none      => return .error .notText

end FileAccess

end ArchReview

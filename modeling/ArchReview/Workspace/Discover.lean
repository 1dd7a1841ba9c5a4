import ArchReview.Outline.Reader
import ArchReview.Layer.Glob
import ArchReview.Workspace.Ignore

/-!
# Finding the sources of a project

All files below a directory that a reader knows, but for hidden ones, those that ignore files
leave out and those that the settings exclude. Paths are relative to the directory, in order.
-/

namespace ArchReview

variable {m : Type → Type} [Monad m]

/-- How deep directories are followed: no path of the system is longer. -/
def maxDepth : Nat := 2048

/-- The names of an absolute path. -/
def namesOf (path : Path) : List String :=
  path.components.filterMap fun c => match c with
    | .name s => some s
    | _       => none

def rulesAt (fs : FileAccess m) (path : Path) : m (List IgnoreRule) :=
  return match ← fs.readText path with
    | .ok text => rulesOf text
    | .error _ => []

/-- The ignore files of a directory. -/
def ignoreLevel (fs : FileAccess m) (folder : Path) : m IgnoreLevel := do
  return {
    depth := (namesOf folder).length
    ignore := ← rulesAt fs (folder.join ⟨".ignore"⟩)
    gitignore := ← rulesAt fs (folder.join ⟨".gitignore"⟩)
    exclude := ← rulesAt fs (folder.join ⟨".git/info/exclude"⟩)
    isTop := ← fs.exists? (folder.join ⟨".git"⟩) }

/-- The ignore files of the directories above one, the nearest first. -/
def levelsAbove (fs : FileAccess m) : List String → m (List IgnoreLevel)
  | []           => return []
  | _ :: outer   => do
    let level ← ignoreLevel fs ⟨"/" ++ "/".intercalate outer.reverse⟩
    return level :: (← levelsAbove fs outer)

/-- An entry is passed over when a rule leaves it out, or when it is hidden and none keeps it. -/
def isSkipped (levels : List IgnoreLevel) (folder : Path) (name : String) (kind : EntryKind) :
    Bool :=
  match IgnoreLevel.verdict levels (namesOf folder ++ [name]) kind with
  | .leaveOut => true
  | .keep     => false
  | .silent   => Text.startsWith name "."

/-- The files below a directory, with their paths relative to the start. -/
def filesBelow (fs : FileAccess m) :
    Nat → List IgnoreLevel → Path → Path → m (List (Path × Path))
  | 0, _, _, _                       => return []
  | fuel + 1, outer, folder, shown => do
    let levels := (← ignoreLevel fs folder) :: outer
    let found ← (← fs.list folder).mapM fun name => do
      let path := folder.join ⟨name⟩
      let shown := shown.join ⟨name⟩
      match ← fs.kind? path with
      | none      => return []
      | some kind =>
        if isSkipped levels folder name kind then return []
        else match kind with
          | .file   => return [(path, shown)]
          | .folder => filesBelow fs fuel levels path shown
    return found.flatten

/-- All files at or below an absolute path. -/
def filesAt (fs : FileAccess m) (root : Path) : m (List (Path × Path)) := do
  match ← fs.kind? root with
  | none         => return []
  | some .file   => return [(root, ⟨""⟩)]
  | some .folder => filesBelow fs maxDepth (← levelsAbove fs (namesOf root).reverse) root ⟨""⟩

/-- The source in a file, if it is one to look at. -/
def sourceAt (fs : FileAccess m) (reader : Reader) (exclude : List String) (path shown : Path) :
    m (Option SourceFile) := do
  match reader.family? path, Language.ofPath? path with
  | some _, some language =>
    if exclude.any fun pattern => Glob.accepts pattern shown.text then return none
    else match ← fs.read path with
      | .ok content => return some ⟨shown, language, content⟩
      | .error _    => return none
  | _, _                  => return none

/-- The sources at or below an absolute path. -/
def discover (fs : FileAccess m) (reader : Reader) (exclude : List String) (root : Path) :
    m (List SourceFile) := do
  let found ← (← filesAt fs root).mapM fun (path, shown) => sourceAt fs reader exclude path shown
  return (found.filterMap id).mergeSort fun a b => a.path.le b.path

end ArchReview

import ArchReview.Cache.Document
import ArchReview.Report.Basic
import ArchReview.Workspace.Discover

/-!
# Reviewing a directory

Settings first, so that nothing is read under wrong ones; then the sources, through the cache if
it is wanted; then the report, named for the directory.
-/

namespace ArchReview

variable {m : Type → Type} [Monad m]

structure ReviewOptions where
  /-- The languages to look at, all if there are none. -/
  languages : List String := []
  /-- A settings file instead of the project's own. -/
  settingsPath : Option Path := none
  useCache : Bool := false
  selfLoops : Option SelfLoops := none
  expectedPatterns : Option Path := none
  deriving Repr, Inhabited

inductive ReviewFault where
  | pathNotFound (path : Path)
  | settings (fault : SettingsFault)
  deriving DecidableEq, Repr, Inhabited

def ReviewFault.message : ReviewFault → String
  | pathNotFound path => s!"Path not found: {path.text}"
  | settings fault    => fault.message

/-! ### Settings -/

def loadSettingsFile (fs : FileAccess m) (path : Path) : m (Except SettingsFault Settings) := do
  match ← fs.readText path with
  | .ok text => return Settings.parse text
  | .error e => return .error (.unreadable e.message)

/-- The settings of a project, the standard ones if it has no file. -/
def loadSettings (fs : FileAccess m) (root : Path) : m (Except SettingsFault Settings) := do
  let path := root.join ⟨settingsFile⟩
  if ← fs.exists? path then loadSettingsFile fs path else return .ok {}

/-- The settings for a review: those of the file with what the options override. -/
def settingsFor (fs : FileAccess m) (root : Path) (options : ReviewOptions) :
    m (Except SettingsFault Settings) := do
  let loaded ← match options.settingsPath with
    | some path => loadSettingsFile fs path
    | none      => loadSettings fs root
  return loaded.map fun s =>
    { s with
      selfLoops := options.selfLoops.getD s.selfLoops
      expectedPatterns := options.expectedPatterns.or s.expectedPatterns }

/-! ### Expected patterns and cache -/

/-- The documented patterns. A document that cannot be read counts as absent. -/
def loadExpected (fs : FileAccess m) (root : Path) (s : Settings) :
    m (Option (List PatternKind)) := do
  match s.expectedPatterns with
  | none      => return none
  | some path =>
    match ← fs.readText (root.join path) with
    | .error _ => return none
    | .ok text => return (Drift.parse text).toOption

def loadCache (fs : FileAccess m) (path : Path) : m Cache := do
  match ← fs.readText path with
  | .ok text => return Cache.ofText text
  | .error _ => return Cache.empty

/-! ### Reviews -/

/-- The outlines of the sources of a project; a cache is kept up to date. -/
def readSources (fs : FileAccess m) (root : Path) (useCache : Bool) (reader : Reader)
    (sources : List SourceFile) : m (List SourceOutline) := do
  if useCache then
    let path := root.join ⟨cacheFile⟩
    let (files, cache) := (← loadCache fs path).readAll reader sources
    -- A cache that cannot be written is only a loss of time.
    let _ ← fs.write path cache.text
    return files
  else return sources.map reader.read

/-- The name of a project: that of its directory. -/
def projectName (root : Path) : String := root.fileName?.getD "project"

/-- Reviews the sources at or below a path. -/
def reviewPath (fs : FileAccess m) (path : Path) (options : ReviewOptions) :
    m (Except ReviewFault Report) := do
  match ← fs.canonical? path with
  | none      => return .error (.pathNotFound path)
  | some root =>
    match ← settingsFor fs root options with
    | .error e     => return .error (.settings e)
    | .ok settings =>
      let sources ← discover fs (Reader.ofLanguages options.languages) settings.exclude root
      let expected ← loadExpected fs root settings
      let files ← readSources fs root options.useCache settings.reader sources
      return .ok { Report.review settings expected files with projectName := projectName root }

end ArchReview

import ArchReview.Outline.Basic

/-!
# Where imports lead

A `Resolver` knows the files of a project and finds the ones that an import refers to. Files are
given by their normal paths. In Python a relative import is looked up as a file, an absolute one
by its dotted name; every file answers to the suffixes of its path. In scripts an import is a path
whose extension may be left out.
-/

namespace ArchReview

def pythonExtensions : List String := ["py", "pyi"]

def scriptExtensions : List String := ["ts", "tsx", "js", "jsx", "mjs", "cjs", "mts", "cts"]

/-- Why an import leads nowhere. -/
inductive UnresolvedReason where
  /-- It names something outside the project. -/
  | external
  /-- It should be in the project and is not. -/
  | missingTarget
  deriving DecidableEq, Repr, Inhabited

def UnresolvedReason.text : UnresolvedReason → String
  | external      => "external"
  | missingTarget => "missing_target"

/-! ### Dotted names -/

/-- The steps to a Python module: a path without extension, and without `__init__` at its end. -/
def moduleParts (path : Path) : List String :=
  let parts := (path.withExtension "").components.map Component.text
  if parts.getLast? == some "__init__" then parts.dropLast else parts

def isPythonFile (path : Path) : Bool :=
  match path.extension? with
  | some ext => pythonExtensions.contains ext
  | none     => false

/-- The suffixes of a list of steps as dotted names; `depth` steps have been left out. A single
step counts as a name only near the top. -/
def dottedSuffixes (depth : Nat) : List String → List String
  | []            => []
  | part :: parts =>
    if parts.isEmpty && depth > 1 then []
    else ".".intercalate (part :: parts) :: dottedSuffixes (depth + 1) parts

/-- The dotted names of a Python file. -/
def dottedNames (path : Path) : List String := dottedSuffixes 0 (moduleParts path)

/-- Shallow files first, then by path. -/
def shallowLe (p q : Path) : Bool :=
  ((compare p.components.length q.components.length).then (p.compare q)) != .gt

/-- Distinct paths in order. -/
def pathSet (paths : List Path) : List Path :=
  (paths.mergeSort Path.le).foldr (fun p kept =>
    match kept with
    | q :: _ => if p.same q then p :: kept.tail else p :: kept
    | []     => [p]) []

structure Resolver where
  files : List Path
  /-- Every dotted name with a file it stands for, the preferred file first. -/
  modules : List (String × Path)
  deriving Repr, Inhabited

namespace Resolver

def ofFiles (files : List Path) : Resolver where
  files
  modules := ((files.filter isPythonFile).mergeSort shallowLe).flatMap fun file =>
    (dottedNames file).map fun name => (name, file)

/-- The file of the project that a path denotes. -/
def file? (r : Resolver) (path : Path) : Option Path := r.files.find? fun f => f.same path

/-! ### Python -/

/-- The module at a path without extension: a file, or the file of a package. -/
def pythonFile? (r : Resolver) (base : Path) : Option Path :=
  let base := base.normalize
  (pythonExtensions.map base.withExtension ++ [base.join ⟨"__init__.py"⟩]).findSome? r.file?

/-- The module with a dotted name. -/
def pythonModule? (r : Resolver) (dotted : String) : Option Path :=
  (r.modules.find? fun e => e.1 == dotted).map fun e => e.2

/-- The imported names that may be modules of their own. -/
def submoduleNames (i : Import) : List String :=
  i.importedNames.filter fun n => n != "*" && n != i.modulePath

/-- The modules among `found`, one entry to an imported name; the package as well, unless every
name is a module. -/
def withPackage (found : List (Option Path)) (package : Option Path) : List Path :=
  let modules := found.filterMap id
  if modules.isEmpty || found.any Option.isNone then modules ++ package.toList else modules

def pythonTargets (r : Resolver) (i : Import) : List Path :=
  let names := submoduleNames i
  if i.isRelative then
    match i.resolvedBase with
    | none      => []
    | some base =>
      withPackage (names.map fun n => r.pythonFile? (base.join ⟨n⟩)) (r.pythonFile? base)
  else
    withPackage (names.map fun n => r.pythonModule? (i.modulePath ++ "." ++ n))
      (r.pythonModule? i.modulePath)

/-! ### Scripts -/

/-- What follows the sign for the source directory. -/
def aliasRest? (module : String) : Option String :=
  let cs := module.toList
  ((Text.stripStart? ['@', '/'] cs).or (Text.stripStart? ['~', '/'] cs)).map String.ofList

/-- A path with an extension added to all of its name. -/
def addExtension (base : Path) (ext : String) : Path := ⟨base.text ++ "." ++ ext⟩

/-- The script that a path refers to: itself, or the one after leaving out or changing the
extension, or the index of a directory. -/
def scriptFile? (r : Resolver) (base : Path) : Option Path :=
  let base := base.normalize
  let stem := match base.extension? with
    | some ext => if scriptExtensions.contains ext then base.withExtension "" else base
    | none     => base
  (base :: scriptExtensions.map (addExtension stem) ++
    scriptExtensions.map fun ext => stem.join ⟨"index." ++ ext⟩).findSome? r.file?

def scriptTarget? (r : Resolver) (i : Import) : Option Path :=
  if i.isRelative then i.resolvedBase.bind r.scriptFile?
  else match aliasRest? i.modulePath with
    | some rest => (r.scriptFile? ((⟨"src"⟩ : Path).join ⟨rest⟩)).or (r.scriptFile? ⟨rest⟩)
    | none      => r.scriptFile? ⟨i.modulePath⟩

/-! ### Imports -/

/-- The files that an import refers to, distinct and in order. -/
def targets (r : Resolver) (language : Language) (i : Import) : List Path :=
  pathSet <| match language with
    | .python                   => r.pythonTargets i
    | .javaScript | .typeScript => (r.scriptTarget? i).toList

end Resolver

/-- A file that is imported but is no source, such as a style sheet. -/
def isAsset (module : String) : Bool :=
  match (⟨module⟩ : Path).extension? with
  | some ext => !scriptExtensions.contains ext && !pythonExtensions.contains ext
  | none     => false

/-- The reason why an import without targets has none. -/
def Import.unresolvedReason (language : Language) (i : Import) : UnresolvedReason :=
  if language == .python then if i.isRelative then .missingTarget else .external
  else if (i.isRelative || (Resolver.aliasRest? i.modulePath).isSome) && !isAsset i.modulePath then
    .missingTarget
  else .external

end ArchReview

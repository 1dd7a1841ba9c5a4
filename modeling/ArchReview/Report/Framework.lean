import ArchReview.Outline.Basic

/-!
# What a project is built on

A guess from the packages that a project imports and from a few well-known files.
-/

namespace ArchReview

inductive Framework where
  | django
  | flask
  | fastApi
  | nextJs
  | nestJs
  | angular
  | vue
  | react
  | express
  | python
  | node
  | unknown
  deriving DecidableEq, Repr, Inhabited

namespace Framework

def text : Framework → String
  | django  => "Django"
  | flask   => "Flask"
  | fastApi => "FastAPI"
  | nextJs  => "Next.js"
  | nestJs  => "NestJS"
  | angular => "Angular"
  | vue     => "Vue"
  | react   => "React"
  | express => "Express"
  | python  => "Python"
  | node    => "Node.js"
  | unknown => "Unknown"

/-- The package of an imported module: two steps of a scoped name, else the first. -/
def packageRoot (modulePath : String) : String :=
  if Text.startsWith modulePath "@" then
    "/".intercalate ((Text.splitOnChar '/' modulePath).take 2)
  else Text.before (fun c => c == '.' || c == '/') modulePath

def slashedPath (path : Path) : String := path.text.map fun c => if c == '\\' then '/' else c

def isManageFile (path : Path) : Bool :=
  let text := slashedPath path
  text == "manage.py" || Text.endsWith text "/manage.py"

def isNextPage (path : Path) : Bool :=
  let text := slashedPath path
  Text.startsWith text "pages/" || Text.contains text "/pages/_app." ||
    Text.startsWith text "app/layout."

/-- The first framework whose sign holds. -/
def firstOf (signs : List (Bool × Framework)) (otherwise : Framework) : Framework :=
  ((signs.find? fun s => s.1).map fun s => s.2).getD otherwise

/-- The framework of a project, by the language that most of its files are in. -/
def guess (outlines : List Outline) : Framework :=
  let uses (name : String) := outlines.any fun o =>
    o.imports.any fun i => !i.isRelative && packageRoot i.modulePath == name
  let pythonCount := (outlines.filter fun o => o.language == .python).length
  let scriptCount := outlines.length - pythonCount
  if pythonCount ≥ scriptCount && pythonCount > 0 then
    firstOf
      [(uses "django" || outlines.any fun o => isManageFile o.path, django),
       (uses "fastapi", fastApi),
       (uses "flask", flask)] python
  else if scriptCount > 0 then
    firstOf
      [(uses "next" || ((outlines.any fun o => isNextPage o.path) && uses "react"), nextJs),
       (uses "@nestjs/core" || uses "@nestjs/common", nestJs),
       (uses "@angular/core", angular),
       (uses "vue", vue),
       (uses "react" || uses "react-dom", react),
       (uses "express", express)] node
  else unknown

end Framework

end ArchReview

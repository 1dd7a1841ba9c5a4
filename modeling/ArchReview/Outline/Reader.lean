import ArchReview.Outline.Python
import ArchReview.Outline.Script
import ArchReview.Source.Basic

/-!
# Reading source files

A reader knows some families of languages and refuses files above a size. Reading never fails: a
file that cannot be read gives a failed outline with the reason.
-/

namespace ArchReview

/-- Languages that share one grammar. -/
inductive Family where
  | python
  | script
  deriving DecidableEq, Repr, Inhabited

namespace Family

/-- The language that stands for the family. -/
def language : Family → Language
  | python => .python
  | script => .typeScript

def ofLanguage : Language → Family
  | .python                   => python
  | .javaScript | .typeScript => script

def extensions : Family → List String
  | python => ["py", "pyi"]
  | script => ["ts", "tsx", "mts", "cts", "js", "jsx", "mjs", "cjs"]

/-- The outline of a text, or the line of its first fault. -/
def outline : Family → Path → Language → String → Except Nat Outline
  | python => Python.outline
  | script => Script.outline

end Family

/-- Why a file was not read. -/
inductive ReadFault where
  | tooLarge (bytes limit : Nat)
  | unsupported (path : Path)
  | malformed (line : Nat)
  deriving DecidableEq, Repr, Inhabited

namespace ReadFault

def message : ReadFault → String
  | tooLarge bytes limit => s!"File is {bytes} bytes, above the {limit} byte limit"
  | unsupported path     => s!"Unsupported language for file: {path.text}"
  | malformed line       => s!"Syntax error at line {line}: unexpected token"

def line? : ReadFault → Option Nat
  | malformed line => some line
  | _              => none

end ReadFault

/-- The largest count of bytes that can be named. -/
def maxByteCount : Nat := Nat.pow 2 64 - 1

structure Reader where
  families : List Family := [.python, .script]
  maxBytes : Nat := maxByteCount
  deriving DecidableEq, Repr, Inhabited

namespace Reader

/-- A reader for the named languages, for all of them when no name is known. -/
def ofLanguages (names : List String) : Reader :=
  let families := names.foldl (fun found name =>
    match Language.ofName? name with
    | none   => found
    | some l =>
      let family := Family.ofLanguage l
      if found.contains family then found else found ++ [family]) []
  if families.isEmpty then {} else { families }

/-- The family of a file by its extension. -/
def family? (r : Reader) (path : Path) : Option Family :=
  path.extension?.bind fun ext => r.families.find? fun f => f.extensions.contains ext

/-- The family of a file: by its extension, else by its language. -/
def familyFor? (r : Reader) (file : SourceFile) : Option Family :=
  (r.family? file.path).or <|
    r.families.find? fun f => f == Family.ofLanguage file.language

/-- The outline of a file. Its size is looked at before its language. -/
def outline (r : Reader) (file : SourceFile) (text : String) : Except ReadFault Outline :=
  if file.content.size > r.maxBytes then .error (.tooLarge file.content.size r.maxBytes)
  else match r.familyFor? file with
    | none        => .error (.unsupported file.path)
    | some family =>
      match family.outline file.path file.language text with
      | .error line => .error (.malformed line)
      | .ok outline => .ok outline

/-- The outline of a file with its text. -/
def read (r : Reader) (file : SourceFile) : SourceOutline :=
  let text := decode file.content
  match r.outline file text with
  | .ok outline => ⟨outline, text⟩
  | .error e    => ⟨Outline.failed file.path file.language e.message e.line?, text⟩

end Reader

end ArchReview

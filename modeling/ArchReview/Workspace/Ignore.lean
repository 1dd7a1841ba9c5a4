import ArchReview.Workspace.Access
import ArchReview.Workspace.Wildcard

/-!
# Ignore files

Ignore files hold one pattern to a line, for the directory they lie in and all below. A pattern
with a separator in it fits from that directory on, any other at every depth; `!` takes files back
in. In one file the last fitting line decides. The file of the nearest directory with a fitting
line decides, `.ignore` before `.gitignore`; the latter count only inside a repository and up to
its top.
-/

namespace ArchReview

structure IgnoreRule where
  /-- Takes back in what an earlier rule left out. -/
  keeps : Bool
  onlyFolders : Bool
  ways : List (List Wildcard.Token)
  deriving DecidableEq, Repr, Inhabited

namespace IgnoreRule

/-- A rule from its line; blank lines, comments and lines that make no sense give none. -/
def parse? (line : List Char) : Option IgnoreRule :=
  let line := if [' ', '\\'].isPrefixOf line.reverse then line else Text.trimEnd line
  match line with
  | [] | '#' :: _ => none
  | line          =>
    let (keeps, anchored, body) := match line with
      | '\\' :: '!' :: rest => (false, false, '!' :: rest)
      | '\\' :: '#' :: rest => (false, false, '#' :: rest)
      | '!' :: '/' :: rest  => (true, true, rest)
      | '!' :: rest         => (true, false, rest)
      | '/' :: rest         => (false, true, rest)
      | line                => (false, false, line)
    let onlyFolders := body.getLast? == some '/'
    let body := if onlyFolders then body.dropLast else body
    let body := if onlyFolders && body.getLast? == some '\\' then body.dropLast else body
    let body := if !anchored && !body.contains '/' && body != ['*', '*'] then
      ['*', '*', '/'] ++ body else body
    let body := if ['*', '*', '/'].isPrefixOf body.reverse then body ++ ['/', '*'] else body
    (Wildcard.parse? body).map fun ways => { keeps, onlyFolders, ways }

def fits (r : IgnoreRule) (path : List Char) (kind : EntryKind) : Bool :=
  (!r.onlyFolders || kind == .folder) && r.ways.any fun way => Wildcard.accepts way path

end IgnoreRule

/-- What some rules say of an entry: keep it, leave it out, or nothing. -/
inductive Verdict where
  | silent
  | leaveOut
  | keep
  deriving DecidableEq, Repr, Inhabited

namespace Verdict

/-- The first that says something. -/
def orElse : Verdict → Verdict → Verdict
  | silent, v => v
  | v, _      => v

end Verdict

/-- The rules of an ignore file; a byte order mark at its start is no part of the first. -/
def rulesOf (text : String) : List IgnoreRule :=
  (Text.lines (text.toList.dropWhile (· == '\ufeff'))).filterMap IgnoreRule.parse?

/-- The last rule that fits decides. -/
def verdictOf (rules : List IgnoreRule) (path : List Char) (kind : EntryKind) : Verdict :=
  match rules.reverse.find? fun r => r.fits path kind with
  | none   => .silent
  | some r => if r.keeps then .keep else .leaveOut

/-- The ignore files of one directory. -/
structure IgnoreLevel where
  /-- The number of names from the root to the directory. -/
  depth : Nat
  ignore : List IgnoreRule
  gitignore : List IgnoreRule
  /-- The rules of the repository's own list. -/
  exclude : List IgnoreRule
  /-- A repository starts here. -/
  isTop : Bool
  deriving Repr, Inhabited

namespace IgnoreLevel

/-- The levels up to the top of the repository, if there is one. -/
def withinRepository (levels : List IgnoreLevel) : List IgnoreLevel :=
  if levels.any IgnoreLevel.isTop then
    match levels.span fun l => !l.isTop with
    | (inner, top :: _) => inner ++ [top]
    | (inner, [])       => inner
  else []

/-- What the nearest level with a fitting rule says. `names` lead from the root to the entry. -/
def judge (rules : IgnoreLevel → List IgnoreRule) (names : List String) (kind : EntryKind) :
    List IgnoreLevel → Verdict
  | []              => .silent
  | level :: levels =>
    (verdictOf (rules level) ("/".intercalate (names.drop level.depth)).toList kind).orElse
      (judge rules names kind levels)

/-- What all ignore files say, the nearest directory first. -/
def verdict (levels : List IgnoreLevel) (names : List String) (kind : EntryKind) : Verdict :=
  let inside := withinRepository levels
  ((judge ignore names kind levels).orElse (judge gitignore names kind inside)).orElse
    (judge exclude names kind inside)

end IgnoreLevel

end ArchReview

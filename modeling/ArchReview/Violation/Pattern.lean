import ArchReview.Path.Basic
import ArchReview.Text.Case
import ArchReview.Text.Unknown

/-!
# Recognised design patterns

A pattern that a file was seen to follow is worth knowing and costs nothing.
-/

namespace ArchReview

inductive PatternKind where
  | repository
  | factory
  | strategy
  | dependencyInjection
  deriving DecidableEq, Repr, Inhabited

namespace PatternKind

/-- As shown to people. -/
def title : PatternKind → String
  | repository          => "Repository"
  | factory             => "Factory"
  | strategy            => "Strategy"
  | dependencyInjection => "Dependency Injection"

/-- As written in data. -/
def text : PatternKind → String
  | repository          => "repository"
  | factory             => "factory"
  | strategy            => "strategy"
  | dependencyInjection => "dependency_injection"

def rank : PatternKind → Nat
  | repository          => 0
  | factory             => 1
  | strategy            => 2
  | dependencyInjection => 3

/-- A pattern by name in any case, with dashes or blanks for underscores. -/
def ofName? (name : String) : Option PatternKind :=
  match (Text.lower name).map fun c => if c == '-' || c == ' ' then '_' else c with
  | "repository"                  => some repository
  | "factory"                     => some factory
  | "strategy"                    => some strategy
  | "dependency_injection" | "di" => some dependencyInjection
  | _                             => none

def read (name : String) : Except UnknownName PatternKind :=
  UnknownName.resolve .pattern ofName? name

end PatternKind

structure PatternFinding where
  kind : PatternKind
  path : Path
  line : Nat
  /-- The class or function that follows the pattern. -/
  subject : String
  evidence : String
  deriving DecidableEq, Repr, Inhabited

end ArchReview

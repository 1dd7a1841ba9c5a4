import ArchReview.Settings.Document
import ArchReview.Violation.Basic
import ArchReview.Violation.Pattern

/-!
# Drift from the documented design

A project may say in a document which patterns it is meant to use. Each of them that is found
nowhere is a violation of the project as a whole.
-/

namespace ArchReview

/-- Why there are no expected patterns. -/
inductive DriftFault where
  | unreadable (cause : String)
  | malformed
  | unknownPattern (name : String)
  deriving DecidableEq, Repr, Inhabited

def DriftFault.message : DriftFault → String
  | unreadable cause    => s!"Failed to read expected-patterns document: {cause}"
  | malformed           => "Failed to parse expected-patterns document"
  | unknownPattern name => s!"Unknown pattern `{name}` (expected repository, factory, strategy or " ++
      "dependency_injection)"

namespace Drift

/-- The pattern with a name. -/
def patternNamed (name : String) : Except DriftFault PatternKind :=
  match PatternKind.ofName? name with
  | some kind => .ok kind
  | none      => .error (.unknownPattern name)

/-- The first of every group of equal elements. -/
def distinct (kinds : List PatternKind) : List PatternKind :=
  kinds.foldl (fun seen k => if seen.contains k then seen else seen ++ [k]) []

/-- The patterns that a document expects. -/
def parse (text : String) : Except DriftFault (List PatternKind) :=
  match (Toml.parse? text).bind fun es => Toml.optional? Toml.texts? (Toml.named? "expected" es) with
  | none       => .error .malformed
  | some names => return distinct (← (names.getD []).mapM patternNamed)

/-- One violation for every expected pattern that was not found. -/
def check (expected : List PatternKind) (found : List PatternKind) : List Violation :=
  (expected.filter fun kind => !found.contains kind).map fun kind =>
    { rule := "PAT-009"
      category := .pattern
      severity := .low
      title := s!"Expected pattern missing: {kind.title}"
      description := s!"The architecture documents the {kind.title} pattern but no occurrence was " ++
        "found."
      path := ⟨""⟩
      recommendation :=
        "Either apply the documented pattern or update the expected-patterns document."
      details := [("pattern", kind.title)] }

end Drift

end ArchReview

/-!
# Names that stand for nothing

Languages, layers, severities, patterns and policies are all written as names. A name that stands
for none of them is reported with the kind of thing that was wanted.
-/

namespace ArchReview

/-- What a name was meant to stand for. -/
inductive Noun where
  | language
  | layer
  | severity
  | pattern
  | selfLoopPolicy
  deriving DecidableEq, Repr, Inhabited

def Noun.text : Noun → String
  | language       => "language"
  | layer          => "layer"
  | severity       => "severity"
  | pattern        => "pattern"
  | selfLoopPolicy => "self-loop policy"

structure UnknownName where
  noun : Noun
  given : String
  deriving DecidableEq, Repr, Inhabited

namespace UnknownName

def message (u : UnknownName) : String := s!"Unknown {u.noun.text}: {u.given}"

/-- What a name stands for, by a partial reading of names. -/
def resolve {α : Type} (noun : Noun) (read? : String → Option α) (given : String) :
    Except UnknownName α :=
  match read? given with
  | some a => .ok a
  | none   => .error ⟨noun, given⟩

end UnknownName

end ArchReview

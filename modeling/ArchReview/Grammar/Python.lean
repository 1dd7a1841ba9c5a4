import ArchReview.Grammar.PythonStatement

/-!
# Python modules

`Python.parse` reads a whole module into syntax trees, or answers the line of the first fault.
-/

namespace ArchReview.Python

open Grammar

/-- One level of the grammar over a reader for the level below. -/
def rule (self : Rules) : Goal → Step Forest
  | .expression    => expression self
  | .disjunction   => disjunction self
  | .negation      => negation self
  | .unary         => unary self
  | .operand       => operand self
  | .interpolation => interpolation self
  | .casePattern   => casePattern self
  | .suite         => suite self
  | .statement     => statement self

/-- The grammar to a given depth of nesting. -/
def grammar : Nat → Rules
  | 0     => fun _ => failHere
  | n + 1 => fun goal => rule (grammar n) goal

/-- A fault at the end of the text is reported on the line of the unfinished statement. -/
def blame (start : Nat) (fault : Fault) : Fault :=
  if fault.atEnd then ⟨start, true⟩ else fault

def moduleLoop (self : Rules) : Nat → Step Forest
  | 0     => failHere
  | n + 1 => do
    let c ← get
    if c.look.shape == .finish then takeTrivia 0
    else
      modify Cursor.enter
      let first ← fun c => ((self .statement) c).mapError (blame c.look.line)
      let rest ← moduleLoop self n
      return first ++ rest

/-- The syntax trees of a module, or the line of the first fault. -/
def parse (source : List Char) : Except Nat Forest :=
  let depth := 8 * source.length + 8
  match (moduleLoop (grammar depth) (source.length + 1)).run (Cursor.start source) with
  | .error fault    => .error fault.line
  | .ok (forest, _) => .ok forest

end ArchReview.Python

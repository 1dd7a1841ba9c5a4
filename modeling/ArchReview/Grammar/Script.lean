import ArchReview.Grammar.ScriptStatement

/-!
# Scripts

`Script.parse` reads a whole script into syntax trees, or answers the line of the first fault.
-/

namespace ArchReview.Script

open Grammar

/-- One level of the grammar over a reader for the level below. -/
def rule (self : Rules) : Goal → Step Forest
  | .sequence  => sequence self
  | .value     => value self
  | .unary     => unary self
  | .base      => base self
  | .pattern   => pattern self
  | .signature => signature self
  | .block     => block self
  | .classBody => classBody self
  | .markup    => element self
  | .reference => reference self
  | .type      => type self
  | .statement => statement self

/-- The grammar to a given depth of nesting. -/
def grammar : Nat → Rules
  | 0     => fun _ => failHere
  | n + 1 => fun goal => rule (grammar n) goal

/-- A fault at the end of the text is reported on the line of the unfinished statement. -/
def blame (start : Nat) (fault : Fault) : Fault :=
  if fault.atEnd then ⟨start, true⟩ else fault

def program (self : Rules) : Step Forest := repeatWhile do
  htmlComments
  let c ← get
  if c.look.shape == .finish then
    let last ← takeComments fun _ => true
    return if last.isEmpty then none else some last
  else
    let item ← fun c => ((self .statement) c).mapError (blame c.look.line)
    return some item

/-- The syntax trees of a script, or the line of the first fault. -/
def parse (dialect : Dialect) (source : List Char) : Except Nat Forest :=
  let depth := 8 * source.length + 8
  match (program (grammar depth)).run (Cursor.start dialect source) with
  | .error fault    => .error fault.line
  | .ok (forest, _) => .ok forest

end ArchReview.Script

import ArchReview.Tree.Basic

/-!
# Reading steps

A `Parse` step moves a position in a text and returns what it read, or stops with a `Fault`. This
module holds the steps that no language is needed for: alternatives and bounded repetition, and
the building of trees.

What is read is a forest: the trees in order, with the comments that stood between them. `node`
wraps a forest and leaves its leading comments outside, so that every comment belongs to the
smallest construct around it. A construct without a token of its own is not wrapped.
-/

namespace ArchReview.Grammar

/-- The token at which reading stopped. -/
structure Fault where
  line : Nat
  atEnd : Bool
  deriving DecidableEq, Repr, Inhabited

abbrev Parse (σ : Type) := StateT σ (Except Fault)

/-- Positions in a text. -/
class Position (σ : Type) where
  /-- A bound on the number of tokens that remain. -/
  remaining : σ → Nat
  /-- The fault of stopping here. -/
  fault : σ → Fault

/-- Kinds of trees, some of which may stand between any two tokens. -/
class HasTrivia (κ : Type) where
  isTrivia : κ → Bool

section Steps

variable {σ α : Type} [Position σ]

def failHere : Parse σ α := fun s => .error (Position.fault s)

def remaining : Parse σ Nat := return Position.remaining (← get)

/-- `p`, or `q` from the same place if `p` fails. -/
def orTry (p q : Parse σ α) : Parse σ α := fun s =>
  match p s with
  | .ok r    => .ok r
  | .error _ => q s

def repeatLoop (step : Parse σ (Option (List α))) : Nat → Parse σ (List α)
  | 0     => failHere
  | n + 1 => do
    match ← step with
    | none    => return []
    | some xs =>
      let rest ← repeatLoop step n
      return xs ++ rest

/-- Steps until one answers `none`. -/
def repeatWhile (step : Parse σ (Option (List α))) : Parse σ (List α) := do
  repeatLoop step (← remaining)

def extendLoop (step : α → Parse σ (Option α)) : Nat → α → Parse σ α
  | 0, _     => failHere
  | n + 1, a => do
    match ← step a with
    | none   => return a
    | some b => extendLoop step n b

/-- Grows a value until the step answers `none`. -/
def extend (step : α → Parse σ (Option α)) (a : α) : Parse σ α := do
  extendLoop step (← remaining) a

def separatedLoop (item : Parse σ (List α)) (separator? : Parse σ (List α)) (stops : σ → Bool) :
    Nat → Parse σ (List α)
  | 0     => failHere
  | n + 1 => do
    if stops (← get) then return []
    let first ← item
    let mark ← separator?
    if mark.isEmpty then return first
    let rest ← separatedLoop item separator? stops n
    return first ++ mark ++ rest

/-- Items between separators, until `stops` holds where an item would start. -/
def separated (item separator? : Parse σ (List α)) (stops : σ → Bool) : Parse σ (List α) := do
  separatedLoop item separator? stops (← remaining)

end Steps

section Forests

variable {κ : Type} [HasTrivia κ]

/-- Wraps a forest into a node, behind its leading trivia. -/
def node (kind : κ) (forest : List (Tree κ)) : List (Tree κ) :=
  match forest.dropWhile fun t => HasTrivia.isTrivia t.kind with
  | []            => forest
  | first :: rest =>
    (forest.takeWhile fun t => HasTrivia.isTrivia t.kind) ++ [.node kind .plain first rest]

/-- Wraps a forest into a node, unless there is no need for one. -/
def nodeUnless (needless : Bool) (kind : κ) (forest : List (Tree κ)) : List (Tree κ) :=
  if needless then forest else node kind forest

/-- Gives the trees of a forest a role; trivia keep theirs. -/
def withRole (role : Role) (forest : List (Tree κ)) : List (Tree κ) :=
  forest.map fun t => if HasTrivia.isTrivia t.kind then t else t.setRole role

/-- The first tree that is not trivia. -/
def main? (forest : List (Tree κ)) : Option (Tree κ) :=
  forest.find? fun t => !HasTrivia.isTrivia t.kind

end Forests

end ArchReview.Grammar

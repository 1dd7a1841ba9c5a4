import ArchReview.Text.Basic

/-!
# Syntax trees

A syntax tree keeps every character of the source: its leaves are the tokens and comments in
order, each with the blanks in front of it and the line it starts on, and the leaves laid end to
end give the source back. Kinds are left open (`κ`), one type for each language; a role tells
what a child is to its parent.

A node has at least one child, so there is no tree without leaves, and lines are read off the
leaves: a tree starts on the line of its first leaf and ends on the line where its last leaf ends.
-/

namespace ArchReview

/-- What a child is to its parent. -/
inductive Role where
  | plain
  | newName
  | alternative
  | argument
  | arguments
  | attribute
  | body
  | condition
  | declaration
  | definition
  | function
  | key
  | left
  | moduleName
  | name
  | object
  | operator
  | parameter
  | parameters
  | pattern
  | property
  | right
  | source
  | subject
  | superclasses
  | target
  | type
  | value
  deriving DecidableEq, Repr, Inhabited

inductive Tree (κ : Type) where
  | leaf (kind : κ) (role : Role) (gap text : String) (line : Nat)
  | node (kind : κ) (role : Role) (first : Tree κ) (rest : List (Tree κ))
  deriving Repr, Inhabited

/-- A leaf without its kind: blanks, text, and the line on which the text starts. -/
structure Leaf where
  gap : String
  text : String
  line : Nat
  deriving DecidableEq, Repr, Inhabited

namespace Leaf

def breaks (s : String) : Nat := s.toList.count '\n'

/-- The number of characters, blanks included. -/
def size (l : Leaf) : Nat := l.gap.length + l.text.length

/-- The line of the last character; a line break belongs to the line that it ends. -/
def lastLine (l : Leaf) : Nat := l.line + l.text.toList.dropLast.count '\n'

end Leaf

namespace Tree

variable {κ : Type}

def kind : Tree κ → κ
  | leaf k _ _ _ _ => k
  | node k _ _ _   => k

def role : Tree κ → Role
  | leaf _ r _ _ _ => r
  | node _ r _ _   => r

def children : Tree κ → List (Tree κ)
  | leaf ..             => []
  | node _ _ first rest => first :: rest

def setRole (r : Role) : Tree κ → Tree κ
  | leaf k _ g t l      => leaf k r g t l
  | node k _ first rest => node k r first rest

/-! ### Leaves, text and lines -/

mutual

/-- The leaves in front of `tail`. -/
def leavesOnto : Tree κ → List Leaf → List Leaf
  | leaf _ _ gap text line, tail => ⟨gap, text, line⟩ :: tail
  | node _ _ first rest, tail    => leavesOnto first (forestOnto rest tail)

def forestOnto : List (Tree κ) → List Leaf → List Leaf
  | [], tail      => tail
  | t :: ts, tail => leavesOnto t (forestOnto ts tail)

end

def leaves (t : Tree κ) : List Leaf := leavesOnto t []

def forestLeaves (forest : List (Tree κ)) : List Leaf := forestOnto forest []

/-- The number of characters of a forest. -/
def forestSize (forest : List (Tree κ)) : Nat :=
  (forestLeaves forest).foldr (fun l n => l.size + n) 0

/-- The source text from the first leaf to the last. -/
def text (t : Tree κ) : String :=
  match t.leaves with
  | []      => ""
  | l :: ls => l.text ++ String.join (ls.map fun l => l.gap ++ l.text)

/-- The line of the first leaf. -/
def firstLine (t : Tree κ) : Nat :=
  match t.leaves with
  | []     => 0
  | l :: _ => l.line

/-- The line on which the last leaf ends. -/
def lastLine (t : Tree κ) : Nat :=
  match t.leaves.getLast? with
  | none   => 0
  | some l => l.lastLine

/-! ### Children -/

/-- The first child in a role. -/
def child? (r : Role) (t : Tree κ) : Option (Tree κ) :=
  t.children.find? fun c => c.role == r

/-- All children in a role, in order. -/
def childrenIn (r : Role) (t : Tree κ) : List (Tree κ) :=
  t.children.filter fun c => c.role == r

end Tree

end ArchReview

import ArchReview.Text.Basic
import ArchReview.Text.Case

/-!
# Searching texts

A place in a text is what precedes it, last character first, and what follows. Phrases are short
descriptions of what to look for at a place: letters in either case, runs of one kind of
character, and edges of words.
-/

namespace ArchReview.Text

/-! ### Places -/

structure Place where
  /-- What precedes, last character first. -/
  lead : List Char
  rest : List Char
  deriving DecidableEq, Repr, Inhabited

/-- The places of a text from a given one to its end. -/
def placesAfter (lead : List Char) : List Char → List Place
  | []      => [⟨lead, []⟩]
  | c :: cs => ⟨lead, c :: cs⟩ :: placesAfter (c :: lead) cs

def places (s : List Char) : List Place := placesAfter [] s

/-- The places where a text occurs. -/
def occurrences (p s : List Char) : List Place :=
  (places s).filter fun place => p.isPrefixOf place.rest

/-- Word characters on exactly one side. -/
def atWordEdge (before after : Option Char) : Bool := before.any isWord != after.any isWord

/-- What follows `p` in `s`, where either may be in upper or lower case. -/
def stripFolded? : List Char → List Char → Option (List Char)
  | [], s            => some s
  | _ :: _, []       => none
  | p :: ps, c :: cs => if fold p == fold c then stripFolded? ps cs else none

/-! ### Phrases -/

inductive Piece where
  /-- The edge of a word. -/
  | edge
  /-- One letter, in either case. -/
  | letter (c : Char)
  /-- One or more characters of a kind. -/
  | run (kind : Char → Bool)

/-- A word between edges. -/
def Piece.word (text : String) : List Piece := .edge :: text.toList.map .letter ++ [.edge]

/-- A phrase stands right after `before`. -/
def standsAt (phrase : List Piece) (before : Option Char) (s : List Char) : Bool :=
  match phrase with
  | []                => true
  | .edge :: ps       => atWordEdge before s.head? && standsAt ps before s
  | .letter l :: ps   =>
    match s with
    | []      => false
    | c :: cs => fold l == fold c && standsAt ps (some c) cs
  | .run kind :: ps   =>
    match s with
    | []      => false
    | c :: cs =>
      kind c && (standsAt ps (some c) cs || standsAt (.run kind :: ps) (some c) cs)
termination_by phrase.length + s.length

/-- A phrase occurs in a text. -/
def hasPhrase (phrase : List Piece) (s : List Char) : Bool :=
  (places s).any fun place => standsAt phrase place.lead.head? place.rest

end ArchReview.Text

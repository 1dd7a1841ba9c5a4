import ArchReview.Text.AlphanumericTable
import ArchReview.Text.IdentifierTable
import ArchReview.Text.WordTable

/-!
# Character classes

The classes the program tells characters apart by: blanks, letters and numbers, word characters
and the characters of identifiers. Each answers for every Unicode character; ASCII is decided
first, without a table.
-/

namespace ArchReview.Text

/-- Membership in a class given by its boundaries. -/
def inBounds (bounds : List Nat) (n : Nat) : Bool :=
  (bounds.takeWhile (· ≤ n)).length % 2 == 1

/-- White space in the sense of Unicode. -/
def isBlank (c : Char) : Bool :=
  let n := c.toNat
  n == 32 || (9 ≤ n && n ≤ 13) || n == 0x85 || n == 0xA0 || n == 0x1680 ||
    (0x2000 ≤ n && n ≤ 0x200A) || n == 0x2028 || n == 0x2029 || n == 0x202F || n == 0x205F ||
    n == 0x3000

/-- Letters and numbers of every script. -/
def isAlphanumeric (c : Char) : Bool :=
  if c.toNat < 128 then c.isAlphanum else inBounds alphanumericBounds c.toNat

/-- Characters that a word is made of: those between which there is no word boundary. -/
def isWord (c : Char) : Bool :=
  if c.toNat < 128 then c.isAlphanum || c == '_' else inBounds wordBounds c.toNat

def isIdentifierStart (c : Char) : Bool :=
  if c.toNat < 128 then c.isAlpha || c == '_' else inBounds identifierStartBounds c.toNat

def isIdentifierContinue (c : Char) : Bool :=
  if c.toNat < 128 then c.isAlphanum || c == '_' else inBounds identifierContinueBounds c.toNat

end ArchReview.Text

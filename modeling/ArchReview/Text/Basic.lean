import ArchReview.Text.Class

/-!
# Cutting and searching texts

The operations on texts that the rest of the program is written with: trimming, splitting at a
character, words, lines, and search for a part. They work on lists of characters; the versions
for strings only convert.
-/

namespace ArchReview.Text

/-! ### Ends -/

def trimStart (s : List Char) : List Char := s.dropWhile isBlank

def trimEnd (s : List Char) : List Char := (s.reverse.dropWhile isBlank).reverse

def trim (s : List Char) : List Char := trimEnd (trimStart s)

/-- What follows `p` in `s`, if `s` starts with it. -/
def stripStart? : List Char → List Char → Option (List Char)
  | [], s            => some s
  | _ :: _, []       => none
  | p :: ps, c :: cs => if p == c then stripStart? ps cs else none

theorem stripStart?_eq_some {p s r : List Char} : stripStart? p s = some r ↔ s = p ++ r := by
  induction p generalizing s with
  | nil => simp [stripStart?]
  | cons a p ih =>
      cases s with
      | nil => simp [stripStart?]
      | cons b s =>
          by_cases h : a = b
          · simp [stripStart?, h, ih]
          · simp [stripStart?, h, Ne.symm h]

/-- What precedes `p` in `s`, if `s` ends with it. -/
def stripEnd? (p s : List Char) : Option (List Char) :=
  (stripStart? p.reverse s.reverse).map List.reverse

/-! ### Parts -/

/-- The pieces between the characters that satisfy `p`; always at least one. -/
def splitWhere (p : Char → Bool) (s : List Char) : List (List Char) :=
  s.foldr (fun c pieces =>
    if p c then [] :: pieces
    else match pieces with
      | []          => [[c]]
      | piece :: ps => (c :: piece) :: ps) [[]]

/-- The maximal runs of characters that are not blank. -/
def words (s : List Char) : List (List Char) :=
  (splitWhere isBlank s).filter (fun w => !w.isEmpty)

/-- `p` occurs in `s`. -/
def hasPart (p : List Char) : List Char → Bool
  | []      => p.isEmpty
  | c :: cs => p.isPrefixOf (c :: cs) || hasPart p cs

/-- A terminated line loses one carriage return at its end. -/
def dropReturn (line : List Char) : List Char :=
  match line.getLast? with
  | some '\r' => line.dropLast
  | _         => line

/-- The lines of a text. A final line break starts no further line. -/
def lines (s : List Char) : List (List Char) :=
  match (splitWhere (· == '\n') s).reverse with
  | []            => []
  | last :: front =>
      (front.map dropReturn).reverse ++ (if last.isEmpty then [] else [last])

/-! ### Strings -/

def trimString (s : String) : String := String.ofList (trim s.toList)

/-- The text with every run of blanks collapsed to one space and none at its ends. -/
def compact (s : String) : String :=
  String.ofList ([' '].intercalate (words s.toList))

def startsWith (s p : String) : Bool := p.toList.isPrefixOf s.toList

def endsWith (s p : String) : Bool := p.toList.isSuffixOf s.toList

def contains (s p : String) : Bool := hasPart p.toList s.toList

def lineCount (s : String) : Nat := (lines s.toList).length

/-- The pieces of `s` between occurrences of the character `sep`. -/
def splitOnChar (sep : Char) (s : String) : List String :=
  (splitWhere (· == sep) s.toList).map String.ofList

/-- The part of `s` before the first character that satisfies `p`. -/
def before (p : Char → Bool) (s : String) : String :=
  String.ofList (s.toList.takeWhile (fun c => !p c))

/-- The part of `s` after the last character that satisfies `p`, all of `s` if there is none. -/
def afterLast (p : Char → Bool) (s : String) : String :=
  String.ofList ((s.toList.reverse.takeWhile (fun c => !p c)).reverse)

/-- `s` without the leading characters that satisfy `p`. -/
def dropLeading (p : Char → Bool) (s : String) : String :=
  String.ofList (s.toList.dropWhile p)

/-- Lexicographic order by code point. -/
def compareChars : List Char → List Char → Ordering
  | [], []           => .eq
  | [], _ :: _       => .lt
  | _ :: _, []       => .gt
  | a :: as, b :: bs => (compare a.toNat b.toNat).then (compareChars as bs)

def compareStrings (a b : String) : Ordering := compareChars a.toList b.toList

end ArchReview.Text

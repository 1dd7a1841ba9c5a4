import ArchReview.Text.CaseTable

/-!
# Upper and lower case

`lower` maps a text to lower case; `fold` maps a character to the representative of the
characters it equals when case is ignored.
-/

namespace ArchReview.Text

/-- The image of `n` under a list of runs, if one of them covers it. -/
def alongRuns (runs : List (Nat × Nat × Nat × Nat)) (n : Nat) : Option Nat :=
  runs.findSome? fun (first, last, step, target) =>
    if first ≤ n && n ≤ last && (n - first) % step == 0 then some (target + (n - first)) else none

/-- The lower-case partner of a character, itself if it has none. -/
def lowerChar (c : Char) : Char :=
  if c.toNat < 128 then c.toLower
  else match alongRuns lowerRuns c.toNat with
    | some n => Char.ofNat n
    | none   => c

/-- Lower case of a text. One letter, the dotted capital `İ`, becomes two characters. -/
def lowerChars (s : List Char) : List Char :=
  s.flatMap fun c => if c.toNat == 0x130 then ['i', Char.ofNat 0x307] else [lowerChar c]

def lower (s : String) : String := String.ofList (lowerChars s.toList)

/-- Two characters are equal without regard to case when they fold to the same one. -/
def fold (c : Char) : Char :=
  let l := lowerChar c
  if l.toNat < 128 then l
  else match alongRuns foldRuns l.toNat with
    | some n => Char.ofNat n
    | none   => l

end ArchReview.Text

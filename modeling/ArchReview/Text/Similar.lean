import ArchReview.Text.Basic

/-!
# Similar words

The Jaro measure of two words: how many characters they share at nearby places, and how many of
those are in the same order.
-/

namespace ArchReview.Text

/-- Marks the first unmarked place within bounds that holds a character; the list starts at the
given place. -/
def pairUp (c : Char) (low high : Nat) : Nat → List (Char × Bool) → Option (List (Char × Bool))
  | _, []               => none
  | i, (d, taken) :: ds =>
    if low ≤ i && i < high && !taken && c == d then some ((d, true) :: ds)
    else (pairUp c low high (i + 1) ds).map ((d, taken) :: ·)

/-- The characters of the first word that find a partner, and the second with its partners marked. -/
def partners (range : Nat) : Nat → List Char → List (Char × Bool) → List Char × List (Char × Bool)
  | _, [], bs      => ([], bs)
  | i, a :: as, bs =>
    match pairUp a (i - range) (i + range + 1) 0 bs with
    | some bs =>
      let (found, bs) := partners range (i + 1) as bs
      (a :: found, bs)
    | none    => partners range (i + 1) as bs

/-- The Jaro measure, between zero and one. -/
def similarity (a b : List Char) : Float :=
  if a.isEmpty && b.isEmpty then 1.0
  else if a.isEmpty || b.isEmpty then 0.0
  else
    let range := max a.length b.length / 2 - 1
    let (found, marked) := partners range 0 a (b.map (·, false))
    if found.isEmpty then 0.0
    else
      let shared := (marked.filter fun p => p.2).map fun p => p.1
      let moved := ((found.zip shared).filter fun p => p.1 != p.2).length / 2
      let n := found.length.toFloat
      (n / a.length.toFloat + n / b.length.toFloat + (n - moved.toFloat) / n) / 3.0

end ArchReview.Text

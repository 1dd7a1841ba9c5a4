import ArchReview.Text.Basic

/-!
# Patterns over paths

A pattern is literal text with two wildcards: `*` stands for characters of one segment, `**` for
any number of whole segments. A pattern without wildcards also accepts the paths that end in it
after a `/`. Backslashes count as `/` on both sides.

The first `**` is taken apart before any `*`, so what stands in front of it is literal.
-/

namespace ArchReview.Glob

/-! ### Cutting a pattern -/

/-- What precedes and what follows the first occurrence of `p`. -/
def cut? (p : List Char) : List Char → Option (List Char × List Char)
  | []      => if p.isEmpty then some ([], []) else none
  | c :: cs =>
    match Text.stripStart? p (c :: cs) with
    | some rest => some ([], rest)
    | none      => (cut? p cs).map fun (lead, tail) => (c :: lead, tail)

theorem length_of_stripStart? {p s r : List Char} (h : Text.stripStart? p s = some r) :
    s.length = p.length + r.length := by
  rw [Text.stripStart?_eq_some.mp h, List.length_append]

/-- Nothing is lost in a cut but `p` itself. -/
theorem length_of_cut? {p s lead tail : List Char} (h : cut? p s = some (lead, tail)) :
    s.length = lead.length + p.length + tail.length := by
  induction s generalizing lead with
  | nil =>
      simp only [cut?] at h
      split at h
      · next hp =>
          cases h
          rw [List.isEmpty_iff.mp hp]
          rfl
      · cases h
  | cons c cs ih =>
      simp only [cut?] at h
      split at h
      · next rest hrest =>
          cases h
          have found := length_of_stripStart? hrest
          rw [List.length_nil]
          omega
      · obtain ⟨inner, hcut, e⟩ := Option.map_eq_some_iff.mp h
        obtain ⟨rfl, rfl⟩ := Prod.mk.inj e
        have inside := ih hcut
        simp only [List.length_cons]
        omega

/-- A pattern after `**` loses the separator it starts with. -/
def afterSeparator : List Char → List Char
  | '/' :: rest => rest
  | cs          => cs

theorem length_afterSeparator (s : List Char) : (afterSeparator s).length ≤ s.length := by
  unfold afterSeparator
  split
  · exact Nat.le_succ _
  · exact Nat.le_refl _

/-- What follows a wildcard is shorter than the pattern, also without a separator. -/
theorem length_lt_of_cut? {p s lead tail : List Char} (hp : p ≠ [])
    (h : cut? p s = some (lead, tail)) :
    tail.length < s.length ∧ (afterSeparator tail).length < s.length := by
  have whole := length_of_cut? h
  have wildcard := List.length_pos_iff.mpr hp
  have shorter := length_afterSeparator tail
  omega

/-! ### Matching -/

/-- What is left of a path after each of its separators. -/
def segmentStarts : List Char → List (List Char)
  | []      => []
  | c :: cs => if c == '/' then cs :: segmentStarts cs else segmentStarts cs

/-- What is left of a path after each start of its first segment. -/
def withinSegment : List Char → List (List Char)
  | []      => [[]]
  | c :: cs => (c :: cs) :: (if c == '/' then [] else withinSegment cs)

def matchChars (pattern path : List Char) : Bool :=
  match _h : cut? ['*', '*'] pattern with
  | some (lead, tail) =>
    match Text.stripStart? lead path with
    | none      => false
    | some rest =>
      let tail' := afterSeparator tail
      tail'.isEmpty || matchChars tail' rest ||
        (segmentStarts rest).any fun start => matchChars tail' start
  | none =>
    match _h : cut? ['*'] pattern with
    | some (lead, tail) =>
      match Text.stripStart? lead path with
      | none      => false
      | some rest => (withinSegment rest).any fun start => matchChars tail start
    | none => pattern == path || ('/' :: pattern).isSuffixOf path
termination_by pattern.length
decreasing_by
  · exact (length_lt_of_cut? (List.cons_ne_nil _ _) _h).2
  · exact (length_lt_of_cut? (List.cons_ne_nil _ _) _h).2
  · exact (length_lt_of_cut? (List.cons_ne_nil _ _) _h).1

/-- A text with `/` for every backslash. -/
def slashed (text : String) : List Char := text.toList.map fun c => if c == '\\' then '/' else c

/-- A path, given by its text, fits a pattern. -/
def accepts (pattern path : String) : Bool := matchChars (slashed pattern) (slashed path)

/-! ### Well-formed patterns -/

inductive Fault where
  | empty
  | tripleStar (pattern : String)
  deriving DecidableEq, Repr, Inhabited

def Fault.message : Fault → String
  | empty              => "empty pattern"
  | tripleStar pattern => s!"'{pattern}' contains '***'"

/-- Why a pattern makes no sense, if it does not. -/
def fault? (pattern : String) : Option Fault :=
  if (Text.trim pattern.toList).isEmpty then some .empty
  else if Text.contains pattern "***" then some (.tripleStar pattern)
  else none

end ArchReview.Glob

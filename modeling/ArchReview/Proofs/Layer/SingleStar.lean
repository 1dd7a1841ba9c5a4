import ArchReview.Proofs.Layer.Segments
import Mathlib.Data.List.TakeWhile

/-!
# Patterns with one star

A `*` is tried on all the starts of what is left of a segment (`mem_withinSegment`).  What stands
behind it is a pattern without wildcards, and such a pattern also accepts the paths that end in it
after a separator.  So `A*B` accepts more than the paths with one segment's characters for the
star: whatever stands between `A` and `B` will do if it ends in a separator
(`accepts_starPattern`).

Before a `**` the star is no wildcard at all: the pattern is cut at the `**` first, and what stands
before is compared as it is.  `A*B/**` accepts the paths that start with `A*B/`, with a star in
them, and no others (`accepts_starPattern_below`), although it passes for a well-formed pattern.
-/

namespace ArchReview.Glob

/-- A pattern with one `*`: what stands before it and what stands behind it. -/
structure StarPattern where
  front : List Char
  back : List Char
  plain : ∀ c ∈ front ++ back, c ≠ '*' ∧ c ≠ '\\'

namespace StarPattern

def chars (p : StarPattern) : List Char := p.front ++ '*' :: p.back

/-- The pattern `A*B`. -/
def text (p : StarPattern) : String := String.ofList p.chars

/-- The pattern `A*B/**`. -/
def below (p : StarPattern) : String := String.ofList (p.chars ++ ['/', '*', '*'])

theorem star_not_mem_front (p : StarPattern) : '*' ∉ p.front := fun h =>
  (p.plain _ (List.mem_append_left _ h)).1 rfl

theorem star_not_mem_back (p : StarPattern) : '*' ∉ p.back := fun h =>
  (p.plain _ (List.mem_append_right _ h)).1 rfl

theorem backslash_not_mem_chars (p : StarPattern) : '\\' ∉ p.chars := by
  intro h
  rcases List.mem_append.mp h with h | h
  · exact (p.plain _ (List.mem_append_left _ h)).2 rfl
  · rcases List.mem_cons.mp h with e | h
    · cases e
    · exact (p.plain _ (List.mem_append_right _ h)).2 rfl

end StarPattern

/-! ### Where the star ends -/

/-- A star may end wherever it has not crossed a separator. -/
theorem mem_withinSegment {start : List Char} : ∀ {s : List Char},
    start ∈ withinSegment s ↔ ∃ m, s = m ++ start ∧ '/' ∉ m
  | [] => by
      constructor
      · intro h
        exact ⟨[], (List.mem_singleton.mp h).symm, List.not_mem_nil⟩
      · rintro ⟨m, e, -⟩
        rw [(List.append_eq_nil_iff.mp e.symm).2]
        exact List.mem_cons_self
  | c :: s => by
      rw [withinSegment, List.mem_cons]
      constructor
      · rintro (rfl | h)
        · exact ⟨[], rfl, List.not_mem_nil⟩
        · split at h
          · cases h
          · rename_i hc
            obtain ⟨m, rfl, hm⟩ := mem_withinSegment.mp h
            refine ⟨c :: m, rfl, fun hslash => ?_⟩
            rcases List.mem_cons.mp hslash with rfl | hslash
            · exact hc rfl
            · exact hm hslash
      · rintro ⟨m, e, hm⟩
        cases m with
        | nil => exact Or.inl e.symm
        | cons d m =>
            obtain ⟨rfl, rfl⟩ := List.cons.inj e
            have hc : ¬ (c == '/') = true := fun h => hm (eq_of_beq h ▸ List.mem_cons_self)
            rw [if_neg hc]
            exact Or.inr (mem_withinSegment.mpr ⟨m, rfl, List.not_mem_of_not_mem_cons hm⟩)

/-- A pattern with stars but no `**` is cut at its first star. -/
theorem matchChars_of_star {pattern path lead tail : List Char}
    (hnone : cut? ['*', '*'] pattern = none) (h : cut? ['*'] pattern = some (lead, tail)) :
    matchChars pattern path = true ↔
      ∃ m start, path = lead ++ m ++ start ∧ '/' ∉ m ∧ matchChars tail start = true := by
  rw [matchChars]
  split
  · rename_i h'
    rw [hnone] at h'
    cases h'
  · split
    · rename_i lead' tail' h'
      obtain ⟨rfl, rfl⟩ : lead = lead' ∧ tail = tail' := by simpa using h.symm.trans h'
      split
      · rename_i hs
        refine iff_of_false Bool.false_ne_true ?_
        rintro ⟨m, start, e, -⟩
        rw [Text.stripStart?_eq_some.mpr (e.trans (List.append_assoc _ _ _))] at hs
        cases hs
      · rename_i rest hs
        rw [Text.stripStart?_eq_some] at hs
        subst hs
        simp only [List.any_eq_true, mem_withinSegment, List.append_assoc,
          List.append_cancel_left_eq]
        constructor
        · rintro ⟨start, ⟨m, e, hm⟩, hstart⟩
          exact ⟨m, start, e, hm, hstart⟩
        · rintro ⟨m, start, e, hm, hstart⟩
          exact ⟨start, ⟨m, e, hm⟩, hstart⟩
    · rename_i h'
      rw [h] at h'
      cases h'

/-! ### What a pattern holds -/

/-- A star that no other follows is passed over in the search for several. -/
theorem cut?_lone {q s : List Char} (h : s.head? ≠ some '*') :
    cut? ('*' :: '*' :: q) ('*' :: s) =
      (cut? ('*' :: '*' :: q) s).map fun (lead, tail) => ('*' :: lead, tail) := by
  have next : Text.stripStart? ('*' :: q) s = none := by
    cases s with
    | nil => rfl
    | cons c s =>
        rw [Text.stripStart?, if_neg]
        intro e
        exact h (congrArg some (eq_of_beq e).symm)
  simp [cut?, Text.stripStart?, next]

theorem isPrefixOf_eq_isSome : ∀ p s : List Char, p.isPrefixOf s = (Text.stripStart? p s).isSome
  | [], _ => rfl
  | _ :: _, [] => rfl
  | a :: p, b :: s => by
      rw [List.isPrefixOf, Text.stripStart?, isPrefixOf_eq_isSome p s]
      cases h : a == b <;> simp

/-- A text has a part if it can be cut there. -/
theorem hasPart_eq_isSome (p : List Char) : ∀ s, Text.hasPart p s = (cut? p s).isSome
  | [] => by
      rw [Text.hasPart, cut?]
      cases p.isEmpty <;> rfl
  | c :: s => by
      rw [Text.hasPart, cut?, isPrefixOf_eq_isSome, hasPart_eq_isSome p s]
      cases Text.stripStart? p (c :: s) <;> simp

theorem mem_dropWhile {f : Char → Bool} {c : Char} {s : List Char} (h : c ∈ s) (hc : f c = false) :
    c ∈ s.dropWhile f := by
  rw [← List.takeWhile_append_dropWhile (p := f) (l := s)] at h
  rcases List.mem_append.mp h with h | h
  · rw [List.mem_takeWhile_imp h] at hc
    cases hc
  · exact h

/-- Trimming takes blanks only. -/
theorem mem_trim {c : Char} {s : List Char} (h : c ∈ s) (hc : Text.isBlank c = false) :
    c ∈ Text.trim s := by
  have start : c ∈ (Text.trimStart s).reverse := List.mem_reverse.mpr (mem_dropWhile h hc)
  exact List.mem_reverse.mpr (mem_dropWhile start hc)

/-! ### One star -/

namespace StarPattern

variable (p : StarPattern)

theorem head?_back : p.back.head? ≠ some '*' := fun h =>
  p.star_not_mem_back (List.mem_of_head? h)

/-- The star is one alone. -/
theorem cut?_double : cut? ['*', '*'] p.chars = none := by
  rw [chars, cut?_append _ p.star_not_mem_front, cut?_lone p.head?_back,
    cut?_eq_none p.star_not_mem_back]
  rfl

/-- Stars are looked for behind the one. -/
theorem cut?_below (q : List Char) :
    cut? ('*' :: '*' :: q) (p.chars ++ ['/', '*', '*']) =
      (cut? ('*' :: '*' :: q) ['*', '*']).map fun (lead, tail) =>
        (p.chars ++ '/' :: lead, tail) := by
  have hslash : '*' ∉ p.back ++ ['/'] := by simpa using p.star_not_mem_back
  have head : (p.back ++ ['/', '*', '*']).head? ≠ some '*' := by
    cases hback : p.back with
    | nil => simp
    | cons c cs =>
        have := p.head?_back
        rw [hback] at this
        exact this
  rw [chars, List.append_assoc, cut?_append _ p.star_not_mem_front, List.cons_append,
    cut?_lone head, List.append_cons, cut?_append _ hslash]
  simp [Function.comp_def]

theorem cut?_single : cut? ['*'] p.chars = some (p.front, p.back) := by
  have first : cut? ['*'] ('*' :: p.back) = some ([], p.back) := by
    simp [cut?, Text.stripStart?]
  rw [chars, cut?_append _ p.star_not_mem_front, first]
  simp

/-- The characters for the star hold no separator, or the last of them is one. -/
theorem matchChars_chars (path : List Char) :
    matchChars p.chars path = true ↔
      ∃ m, path = p.front ++ m ++ p.back ∧ ('/' ∉ m ∨ ['/'] <:+ m) := by
  rw [matchChars_of_star p.cut?_double p.cut?_single]
  simp only [matchChars_of_not_mem p.star_not_mem_back, List.mem_cons, mem_segmentStarts]
  constructor
  · rintro ⟨m, start, rfl, hm, rfl | ⟨more, rfl⟩⟩
    · exact ⟨m, rfl, Or.inl hm⟩
    · -- the tail is accepted as the end of what the star has left
      exact ⟨m ++ more ++ ['/'], by simp, Or.inr (List.suffix_append _ _)⟩
  · rintro ⟨m, rfl, hm | ⟨more, rfl⟩⟩
    · exact ⟨m, p.back, rfl, hm, Or.inl rfl⟩
    · exact ⟨[], more ++ '/' :: p.back, by simp, List.not_mem_nil, Or.inr (List.suffix_append _ _)⟩

/-- Before a `**` the star stands for itself. -/
theorem matchChars_below (path : List Char) :
    matchChars (p.chars ++ ['/', '*', '*']) path = true ↔ p.chars ++ ['/'] <+: path := by
  have cut : cut? ['*', '*'] (p.chars ++ ['/', '*', '*']) = some (p.chars ++ ['/'], []) := by
    rw [cut?_below]
    rfl
  rw [matchChars_of_cut cut]
  constructor
  · rintro ⟨rest, rfl, -⟩
    exact List.prefix_append _ _
  · rintro ⟨rest, rfl⟩
    exact ⟨rest, rfl, Or.inl rfl⟩

theorem fault?_below : fault? p.below = none := by
  have hchars : p.below.toList = p.chars ++ ['/', '*', '*'] := String.toList_ofList
  have hstar : '*' ∈ p.chars ++ ['/', '*', '*'] := by simp
  have hblank : (Text.trim p.below.toList).isEmpty = false := by
    rw [hchars, List.isEmpty_eq_false_iff]
    exact List.ne_nil_of_mem (mem_trim hstar (by decide))
  have htriple : Text.contains p.below "***" = false := by
    rw [Text.contains, hchars, hasPart_eq_isSome]
    exact congrArg Option.isSome (p.cut?_below ['*'])
  simp [fault?, hblank, htriple]

end StarPattern

/-- **A single star.**  `A*B` accepts the paths that have characters of one segment between `A` and
`B`, and those that have anything there that ends in a separator. -/
theorem accepts_starPattern (p : StarPattern) (path : String) :
    accepts p.text path = true ↔
      ∃ m, slashed path = p.front ++ m ++ p.back ∧ ('/' ∉ m ∨ ['/'] <:+ m) := by
  rw [accepts, StarPattern.text, slashed_ofList p.backslash_not_mem_chars]
  exact p.matchChars_chars _

example : (⟨['s', 'r', 'c', '/'], ['.', 't', 's'], by simp⟩ : StarPattern).text = "src/*.ts" := by
  decide +kernel

/-- The star of `src/*app.ts` crosses a separator: the rest of the path ends in `/app.ts`. -/
theorem accepts_star_across_separator :
    accepts "src/*app.ts" "src/ui/app.ts" = true ∧
      ¬ ∃ m : List Char, "src/ui/app.ts".toList = "src/".toList ++ m ++ "app.ts".toList ∧
        '/' ∉ m := by
  refine ⟨by decide +kernel, ?_⟩
  rintro ⟨m, e, hm⟩
  have hsplit : "src/ui/app.ts".toList = "src/".toList ++ ['u', 'i', '/'] ++ "app.ts".toList := by
    decide +kernel
  rw [hsplit] at e
  obtain rfl := List.append_cancel_left (List.append_cancel_right e)
  exact hm (by decide)

/-- **A star before `**`.**  `A*B/**` is a well-formed pattern, but it accepts only the paths that
start with `A*B/` as it is written: its star is compared like any other character. -/
theorem accepts_starPattern_below (p : StarPattern) (path : String) :
    fault? p.below = none ∧
      (accepts p.below path = true ↔ p.front ++ '*' :: p.back ++ ['/'] <+: slashed path) := by
  have hplain : '\\' ∉ p.chars ++ ['/', '*', '*'] := by simpa using p.backslash_not_mem_chars
  refine ⟨p.fault?_below, ?_⟩
  rw [accepts, StarPattern.below, slashed_ofList hplain]
  exact p.matchChars_below _

/-- `packages/*/views/**` leaves out the views of every package. -/
theorem accepts_star_below_fails :
    "packages/web/views/page.ts".toList =
        "packages/".toList ++ "web".toList ++ "/views".toList ++ '/' :: "page.ts".toList ∧
      '/' ∉ "web".toList ∧
      accepts "packages/*/views/**" "packages/web/views/page.ts" = false := by
  decide +kernel

end ArchReview.Glob

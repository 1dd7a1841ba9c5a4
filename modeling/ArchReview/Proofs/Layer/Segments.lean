import ArchReview.Layer.Glob
import ArchReview.Proofs.Path.Normal
import Mathlib.Data.List.Infix

/-!
# Patterns of whole segments

The matcher works on characters: it cuts a pattern at its first `**`, strips what stands before and
tries what stands behind at every separator of the path.  For a pattern whose segments are literals
or `**`, with a `**` among them, this is matching segment by segment (`accepts_segmentPattern`): a
`**` at the end stands for one or more segments of the path, any other one for zero or more
(`fits`).

* `matchChars_append`: text before a pattern with a `**` is stripped off the path.
* `matchChars_anything`: behind `**/` a pattern is tried at every start of a segment, and these are
  the ends of the path's list of segments (`IsSplit.mem_starts_iff`).
* `matchChars_literals`: without a `**`, some end of the list of segments is the pattern.
-/

namespace ArchReview.Glob

/-! ### Segments -/

/-- A segment that stands for itself. -/
structure Literal where
  chars : List Char
  ne_nil : chars ≠ []
  plain : ∀ c ∈ chars, c ≠ '/' ∧ c ≠ '*' ∧ c ≠ '\\'

inductive Segment where
  | literal (l : Literal)
  | anything

namespace Segment

def chars : Segment → List Char
  | literal l => l.chars
  | anything  => ['*', '*']

theorem ne_nil : ∀ s : Segment, s.chars ≠ []
  | literal l => l.ne_nil
  | anything  => List.cons_ne_nil _ _

theorem plain : ∀ s : Segment, ∀ c ∈ s.chars, c ≠ '/' ∧ c ≠ '\\'
  | literal l, c, hc => ⟨(l.plain c hc).1, (l.plain c hc).2.2⟩
  | anything, _, hc => by
      obtain rfl : _ = '*' := by simpa [chars] using hc
      decide

end Segment

/-- Segments with separators between them. -/
def join (names : List (List Char)) : List Char := ['/'].intercalate names

/-- The text of a pattern, given by its segments. -/
def textOf (ps : List Segment) : List Char := join (ps.map Segment.chars)

/-- The segments of a pattern fit those of a path, literals their like.  A `**` at the end stands for
one or more segments, any other one for zero or more. -/
def fits : List Segment → List (List Char) → Bool
  | [],                   names         => names.isEmpty
  | .literal _ :: _,      []            => false
  | .literal l :: ps,     name :: names => name == l.chars && fits ps names
  | [.anything],          names         => !names.isEmpty
  | .anything :: p :: ps, names         => names.tails.any fun rest => fits (p :: ps) rest

/-- A pattern of literals and `**`, with a `**` among them. -/
structure SegmentPattern where
  segments : List Segment
  anything_mem : .anything ∈ segments

def SegmentPattern.text (p : SegmentPattern) : String := String.ofList (textOf p.segments)

/-- The pattern `**/l/**`. -/
def Literal.anywhere (l : Literal) : SegmentPattern where
  segments := [.anything, .literal l, .anything]
  anything_mem := List.mem_cons_self

theorem fits_literal {l : Literal} {ps : List Segment} {names : List (List Char)} :
    fits (.literal l :: ps) names = true ↔
      ∃ rest, names = l.chars :: rest ∧ fits ps rest = true := by
  cases names with
  | nil => simp [fits]
  | cons name names => simp [fits]

theorem fits_anything {p : Segment} {ps : List Segment} {names : List (List Char)} :
    fits (.anything :: p :: ps) names = true ↔
      ∃ rest, rest <:+ names ∧ fits (p :: ps) rest = true := by
  simp [fits]

/-- Only a pattern without segments fits no segments. -/
theorem ne_nil_of_fits : ∀ {ps : List Segment} {names : List (List Char)}, ps ≠ [] →
    fits ps names = true → names ≠ []
  | [], _, h, _ => absurd rfl h
  | .literal _ :: _, _, _, h => by
      obtain ⟨_, rfl, -⟩ := fits_literal.mp h
      exact List.cons_ne_nil _ _
  | [.anything], _, _, h => by simpa [fits] using h
  | .anything :: p :: ps, names, _, h => by
      obtain ⟨rest, hrest, hfits⟩ := fits_anything.mp h
      rintro rfl
      exact ne_nil_of_fits (List.cons_ne_nil p ps) hfits (List.suffix_nil.mp hrest)

theorem fits_literals : ∀ {ps : List Segment} {names : List (List Char)}, .anything ∉ ps →
    (fits ps names = true ↔ names = ps.map Segment.chars)
  | [], names, _ => by simp [fits]
  | .literal l :: ps, names, h => by
      have ih (rest) := @fits_literals ps rest (List.not_mem_of_not_mem_cons h)
      simp [fits_literal, ih, Segment.chars]
  | .anything :: _, _, h => absurd List.mem_cons_self h

/-! ### Joined segments -/

@[simp] theorem join_singleton (name : List Char) : join [name] = name :=
  List.intercalate_singleton

theorem join_cons {name : List Char} {names : List (List Char)} (h : names ≠ []) :
    join (name :: names) = name ++ '/' :: join names := by
  cases names with
  | nil => exact absurd rfl h
  | cons next names => simp [join, List.intercalate_cons_cons]

/-- The segments of some path: there is one, and none holds a separator. -/
structure IsSplit (names : List (List Char)) : Prop where
  ne_nil : names ≠ []
  slash_not_mem : ∀ name ∈ names, '/' ∉ name

namespace IsSplit

variable {names : List (List Char)} (h : IsSplit names)
include h

theorem of_suffix {rest : List (List Char)} (hrest : rest <:+ names) (hne : rest ≠ []) :
    IsSplit rest :=
  ⟨hne, fun name hname => h.slash_not_mem name (hrest.subset hname)⟩

/-- The segments can be told from the joined text. -/
theorem splitOn_join : (join names).splitOn '/' = names :=
  List.splitOn_intercalate '/' h.slash_not_mem h.ne_nil

theorem join_inj {names' : List (List Char)} (h' : IsSplit names') :
    join names = join names' ↔ names = names' := by
  constructor
  · intro e
    rw [← h.splitOn_join, e, h'.splitOn_join]
  · exact congrArg join

/-- Up to its first separator, a path is its first segment. -/
theorem join_eq_append_iff {name rest : List Char} (hname : '/' ∉ name) :
    join names = name ++ '/' :: rest ↔
      ∃ more, names = name :: more ∧ more ≠ [] ∧ rest = join more := by
  constructor
  · intro e
    refine ⟨rest.splitOn '/', ?_, List.splitOn_ne_nil _ _, (List.intercalate_splitOn '/').symm⟩
    have first : IsSplit [name] := ⟨List.cons_ne_nil _ _, by simpa using hname⟩
    calc names
        = (name ++ '/' :: rest).splitOn '/' := by rw [← e, h.splitOn_join]
      _ = (join [name]).splitOn '/' ++ rest.splitOn '/' := by
          rw [join_singleton]
          exact List.splitOnP_append_cons _ _ (beq_self_eq_true '/')
      _ = name :: rest.splitOn '/' := by
          rw [first.splitOn_join]
          rfl
  · rintro ⟨more, rfl, hmore, rfl⟩
    exact join_cons hmore

end IsSplit

theorem mem_join {c : Char} : ∀ {names : List (List Char)}, c ∈ join names →
    c = '/' ∨ ∃ name ∈ names, c ∈ name
  | [], h => nomatch h
  | [name], h => Or.inr ⟨name, List.mem_cons_self, by simpa using h⟩
  | name :: next :: names, h => by
      rw [join_cons (List.cons_ne_nil _ _), List.mem_append, List.mem_cons] at h
      rcases h with h | h | h
      · exact Or.inr ⟨name, List.mem_cons_self, h⟩
      · exact Or.inl h
      · refine (mem_join h).imp_right ?_
        rintro ⟨n, hn, hc⟩
        exact ⟨n, List.mem_cons_of_mem _ hn, hc⟩

/-! ### Starts of segments -/

theorem mem_segmentStarts {p : List Char} : ∀ {s : List Char},
    p ∈ segmentStarts s ↔ '/' :: p <:+ s
  | [] => by simp [segmentStarts]
  | c :: s => by
      rw [segmentStarts, List.suffix_cons_iff, ← mem_segmentStarts, List.cons.injEq]
      by_cases hc : c = '/'
      · simp [hc]
      · simp [hc, Ne.symm hc]

theorem segmentStarts_append : ∀ {name : List Char} (rest : List Char), '/' ∉ name →
    segmentStarts (name ++ rest) = segmentStarts rest
  | [], _, _ => rfl
  | c :: name, rest, h => by
      have hc : c ≠ '/' := fun e => h (e ▸ List.mem_cons_self)
      rw [List.cons_append, segmentStarts, if_neg (by simpa using hc)]
      exact segmentStarts_append rest fun hn => h (List.mem_cons_of_mem _ hn)

/-- A path can be entered where one of its segments starts. -/
theorem IsSplit.mem_starts_iff {s : List Char} : ∀ {names : List (List Char)}, IsSplit names →
    (s ∈ join names :: segmentStarts (join names) ↔
      ∃ rest, rest <:+ names ∧ rest ≠ [] ∧ s = join rest)
  | [], h => absurd rfl h.ne_nil
  | [name], h => by
      have none : segmentStarts name = [] := by
        simpa [segmentStarts] using
          segmentStarts_append [] (h.slash_not_mem name List.mem_cons_self)
      simp [none, List.suffix_cons_iff]
  | name :: next :: names, h => by
      have hnext := h.of_suffix (List.suffix_cons name _) (List.cons_ne_nil next names)
      have starts : segmentStarts (join (name :: next :: names)) =
          join (next :: names) :: segmentStarts (join (next :: names)) := by
        rw [join_cons hnext.ne_nil,
          segmentStarts_append _ (h.slash_not_mem name List.mem_cons_self)]
        rfl
      rw [starts, List.mem_cons, hnext.mem_starts_iff]
      constructor
      · rintro (rfl | ⟨rest, hrest, hne, rfl⟩)
        · exact ⟨_, List.suffix_rfl, h.ne_nil, rfl⟩
        · exact ⟨rest, hrest.trans (List.suffix_cons _ _), hne, rfl⟩
      · rintro ⟨rest, hrest, hne, rfl⟩
        rcases List.suffix_cons_iff.mp hrest with rfl | hrest
        · exact Or.inl rfl
        · exact Or.inr ⟨rest, hrest, hne, rfl⟩

/-! ### The matcher -/

/-- A pattern is cut behind the characters that cannot be cut. -/
theorem cut?_append {p : List Char} : ∀ {u : List Char} (s : List Char), '*' ∉ u →
    cut? ('*' :: p) (u ++ s) = (cut? ('*' :: p) s).map fun (lead, tail) => (u ++ lead, tail)
  | [], s, _ => by simp
  | c :: u, s, h => by
      have hc : '*' ≠ c := fun e => h (e ▸ List.mem_cons_self)
      have ih := cut?_append (p := p) s fun hu => h (List.mem_cons_of_mem c hu)
      rw [List.cons_append, cut?, Text.stripStart?, if_neg (by simpa using hc), ih]
      simp [Function.comp_def]

theorem cut?_eq_none {p s : List Char} (h : '*' ∉ s) : cut? ('*' :: p) s = none := by
  simpa [cut?] using cut?_append (p := p) [] h

theorem cut?_anything (tail : List Char) :
    cut? ['*', '*'] ('*' :: '*' :: tail) = some ([], tail) := by
  simp [cut?, Text.stripStart?]

theorem matchChars_of_cut {pattern path lead tail : List Char}
    (h : cut? ['*', '*'] pattern = some (lead, tail)) :
    matchChars pattern path = true ↔ ∃ rest, path = lead ++ rest ∧
      (afterSeparator tail = [] ∨
        ∃ start ∈ rest :: segmentStarts rest, matchChars (afterSeparator tail) start = true) := by
  rw [matchChars]
  split
  · rename_i lead' tail' h'
    obtain ⟨rfl, rfl⟩ : lead = lead' ∧ tail = tail' := by simpa using h.symm.trans h'
    split
    · rename_i hs
      have : ∀ rest, path ≠ lead ++ rest := fun rest e => by
        rw [Text.stripStart?_eq_some.mpr e] at hs
        cases hs
      simp [this]
    · rename_i rest hs
      rw [Text.stripStart?_eq_some] at hs
      simp [hs, or_assoc]
  · rename_i h'
    rw [h] at h'
    cases h'

/-- A pattern without wildcards is tried at every start of a segment. -/
theorem matchChars_of_not_mem {pattern path : List Char} (h : '*' ∉ pattern) :
    matchChars pattern path = true ↔ pattern ∈ path :: segmentStarts path := by
  rw [matchChars]
  split
  · rename_i h'
    rw [cut?_eq_none h] at h'
    cases h'
  · split
    · rename_i h'
      rw [cut?_eq_none h] at h'
      cases h'
    · simp [mem_segmentStarts]

/-- Text before a pattern with a `**` is stripped off the path. -/
theorem matchChars_append {u p path : List Char} (hu : '*' ∉ u)
    (hp : (cut? ['*', '*'] p).isSome = true) :
    matchChars (u ++ p) path = true ↔ ∃ rest, path = u ++ rest ∧ matchChars p rest = true := by
  obtain ⟨⟨lead, tail⟩, h⟩ := Option.isSome_iff_exists.mp hp
  have h' : cut? ['*', '*'] (u ++ p) = some (u ++ lead, tail) := by
    rw [cut?_append p hu, h]
    rfl
  -- both patterns are cut at the same `**`, one of them with `u` before it
  simp only [matchChars_of_cut h, matchChars_of_cut h']
  constructor
  · rintro ⟨rest, hpath, hrest⟩
    exact ⟨lead ++ rest, by rw [hpath, List.append_assoc], rest, rfl, hrest⟩
  · rintro ⟨_, hpath, rest, rfl, hrest⟩
    exact ⟨rest, by rw [hpath, List.append_assoc], hrest⟩

/-- Nothing behind a `**` asks for nothing. -/
theorem matchChars_final (path : List Char) : matchChars ['*', '*'] path = true :=
  (matchChars_of_cut (cut?_anything [])).mpr ⟨path, rfl, Or.inl rfl⟩

/-- What stands behind `**/` is tried at every start of a segment. -/
theorem matchChars_anything {p path : List Char} (hp : p ≠ []) :
    matchChars ('*' :: '*' :: '/' :: p) path = true ↔
      ∃ start ∈ path :: segmentStarts path, matchChars p start = true := by
  rw [matchChars_of_cut (cut?_anything _)]
  simp [afterSeparator, hp]

/-! ### The texts of patterns -/

theorem textOf_cons (p : Segment) {ps : List Segment} (h : ps ≠ []) :
    textOf (p :: ps) = p.chars ++ '/' :: textOf ps :=
  join_cons (by simpa using h)

theorem textOf_ne_nil {ps : List Segment} (h : ps ≠ []) : textOf ps ≠ [] := by
  match ps, h with
  | [p], _ => simpa [textOf] using p.ne_nil
  | p :: q :: ps, _ =>
    rw [textOf_cons p (List.cons_ne_nil q ps)]
    simp

theorem isSplit_chars {ps : List Segment} (h : ps ≠ []) : IsSplit (ps.map Segment.chars) where
  ne_nil := by simpa using h
  slash_not_mem name hname hc := by
    obtain ⟨p, -, rfl⟩ := List.mem_map.mp hname
    exact (p.plain _ hc).1 rfl

theorem star_not_mem_textOf {ps : List Segment} (h : .anything ∉ ps) : '*' ∉ textOf ps := by
  intro hstar
  rcases mem_join hstar with e | ⟨name, hname, hc⟩
  · cases e
  · obtain ⟨p, hp, rfl⟩ := List.mem_map.mp hname
    cases p with
    | literal l => exact (l.plain _ hc).2.1 rfl
    | anything => exact h hp

theorem Literal.star_not_mem (l : Literal) : '*' ∉ l.chars ++ ['/'] := by
  simpa using fun hc => (l.plain _ hc).2.1 rfl

theorem Literal.slash_not_mem (l : Literal) : '/' ∉ l.chars := fun hc => (l.plain _ hc).1 rfl

/-- A `**` among the segments is found. -/
theorem isSome_cut?_textOf : ∀ {ps : List Segment}, .anything ∈ ps →
    (cut? ['*', '*'] (textOf ps)).isSome = true
  | [.anything], _ => rfl
  | .anything :: p :: ps, _ => by
      rw [textOf_cons _ (List.cons_ne_nil p ps)]
      exact congrArg Option.isSome (cut?_anything _)
  | .literal l :: ps, h => by
      have hps : .anything ∈ ps := (List.mem_cons.mp h).resolve_left nofun
      rw [textOf_cons _ (List.ne_nil_of_mem hps), List.append_cons, Segment.chars,
        cut?_append _ l.star_not_mem, Option.isSome_map]
      exact isSome_cut?_textOf hps

/-! ### Segment by segment -/

/-- Without a `**`, some end of the list of segments is the pattern. -/
theorem matchChars_literals {ps : List Segment} (hps : ps ≠ []) (h : .anything ∉ ps)
    {names : List (List Char)} (hn : IsSplit names) :
    matchChars (textOf ps) (join names) = true ↔ ∃ rest, rest <:+ names ∧ fits ps rest = true := by
  rw [matchChars_of_not_mem (star_not_mem_textOf h), hn.mem_starts_iff]
  constructor
  · rintro ⟨rest, hrest, hne, e⟩
    have same := ((isSplit_chars hps).join_inj (hn.of_suffix hrest hne)).mp e
    exact ⟨rest, hrest, (fits_literals h).mpr same.symm⟩
  · rintro ⟨rest, hrest, hfits⟩
    exact ⟨rest, hrest, ne_nil_of_fits hps hfits, by rw [(fits_literals h).mp hfits, textOf]⟩

/-- **A pattern with a `**` is matched segment by segment.**  The induction is on the segments of
the pattern; behind the last `**` there are only literals. -/
theorem matchChars_textOf : ∀ {ps : List Segment} {names : List (List Char)}, .anything ∈ ps →
    IsSplit names → (matchChars (textOf ps) (join names) = true ↔ fits ps names = true)
  | [.anything], names, _, hn => by
      have hfits : fits [.anything] names = true := by simpa [fits] using hn.ne_nil
      exact iff_of_true (matchChars_final _) hfits
  | .literal l :: ps, names, h, hn => by
      have hps : .anything ∈ ps := (List.mem_cons.mp h).resolve_left nofun
      have hne : ps ≠ [] := List.ne_nil_of_mem hps
      rw [textOf_cons _ hne, List.append_cons, Segment.chars,
        matchChars_append l.star_not_mem (isSome_cut?_textOf hps), fits_literal]
      constructor
      · rintro ⟨rest, e, hmatch⟩
        rw [← List.append_cons, hn.join_eq_append_iff l.slash_not_mem] at e
        obtain ⟨more, rfl, hmore, rfl⟩ := e
        have hn' := hn.of_suffix (List.suffix_cons _ _) hmore
        exact ⟨more, rfl, (matchChars_textOf hps hn').mp hmatch⟩
      · rintro ⟨more, rfl, hfits⟩
        have hn' := hn.of_suffix (List.suffix_cons _ _) (ne_nil_of_fits hne hfits)
        exact ⟨join more, by rw [join_cons hn'.ne_nil, List.append_cons],
          (matchChars_textOf hps hn').mpr hfits⟩
  | .anything :: p :: ps, names, _, hn => by
      have hne : p :: ps ≠ [] := List.cons_ne_nil p ps
      -- what is matched behind `**/` ends in segments that fit
      have behind : ∀ {rest}, IsSplit rest →
          (matchChars (textOf (p :: ps)) (join rest) = true →
            ∃ more, more <:+ rest ∧ fits (p :: ps) more = true) ∧
          (fits (p :: ps) rest = true → matchChars (textOf (p :: ps)) (join rest) = true) := by
        intro rest hrest
        by_cases h : .anything ∈ p :: ps
        · have ih := matchChars_textOf h hrest
          exact ⟨fun hm => ⟨rest, List.suffix_rfl, ih.mp hm⟩, ih.mpr⟩
        · have literals := matchChars_literals hne h hrest
          exact ⟨literals.mp, fun hf => literals.mpr ⟨rest, List.suffix_rfl, hf⟩⟩
      rw [textOf_cons _ hne]
      refine (matchChars_anything (textOf_ne_nil hne)).trans ?_
      rw [fits_anything]
      constructor
      · rintro ⟨start, hstart, hmatch⟩
        obtain ⟨rest, hrest, hrest', rfl⟩ := hn.mem_starts_iff.mp hstart
        obtain ⟨more, hmore, hfits⟩ := (behind (hn.of_suffix hrest hrest')).1 hmatch
        exact ⟨more, hmore.trans hrest, hfits⟩
      · rintro ⟨rest, hrest, hfits⟩
        have hrest' := ne_nil_of_fits hne hfits
        exact ⟨join rest, hn.mem_starts_iff.mpr ⟨rest, hrest, hrest', rfl⟩,
          (behind (hn.of_suffix hrest hrest')).2 hfits⟩

/-- `**/l/**` asks for `l/` at the start of a segment. -/
theorem matchChars_anywhere (l : Literal) (path : List Char) :
    matchChars (textOf l.anywhere.segments) path = true ↔
      l.chars ++ ['/'] <+: path ∨ '/' :: l.chars ++ ['/'] <:+: path := by
  have behind (start : List Char) : matchChars (textOf [.literal l, .anything]) start = true ↔
      l.chars ++ ['/'] <+: start := by
    rw [textOf_cons _ (List.cons_ne_nil _ _), List.append_cons]
    refine (matchChars_append l.star_not_mem rfl).trans ?_
    constructor
    · rintro ⟨rest, rfl, -⟩
      exact List.prefix_append _ _
    · rintro ⟨rest, rfl⟩
      exact ⟨rest, rfl, matchChars_final rest⟩
  have hne : textOf [.literal l, .anything] ≠ [] := textOf_ne_nil (List.cons_ne_nil _ _)
  rw [Literal.anywhere, textOf_cons _ (List.cons_ne_nil _ _)]
  refine (matchChars_anything hne).trans ?_
  simp only [behind, List.mem_cons, mem_segmentStarts]
  constructor
  · rintro ⟨start, rfl | hstart, hl⟩
    · exact Or.inl hl
    · obtain ⟨rest, rfl⟩ := hl
      have front : '/' :: l.chars ++ ['/'] <+: '/' :: (l.chars ++ ['/'] ++ rest) := ⟨rest, by simp⟩
      exact Or.inr (front.isInfix.trans hstart.isInfix)
  · rintro (hl | ⟨front, rest, rfl⟩)
    · exact ⟨path, Or.inl rfl, hl⟩
    · exact ⟨l.chars ++ ['/'] ++ rest, Or.inr ⟨front, by simp⟩, List.prefix_append _ _⟩

/-! ### Texts -/

/-- A text without backslashes is compared as it is. -/
theorem slashed_ofList {s : List Char} (h : '\\' ∉ s) : slashed (String.ofList s) = s := by
  have same : ∀ c ∈ s, (if c == '\\' then '/' else c) = c := by
    intro c hc
    rw [if_neg]
    intro e
    exact h (eq_of_beq e ▸ hc)
  rw [slashed, String.toList_ofList, List.map_congr_left same, List.map_id']

theorem slashed_text (p : SegmentPattern) : slashed p.text = textOf p.segments := by
  refine slashed_ofList fun h => ?_
  rcases mem_join h with e | ⟨name, hname, hc⟩
  · cases e
  · obtain ⟨q, -, rfl⟩ := List.mem_map.mp hname
    exact (q.plain _ hc).2 rfl

/-- The segments of a path, a backslash being a separator too. -/
def segmentsOf (path : String) : List (List Char) := Text.splitWhere (· == '/') (slashed path)

theorem segmentsOf_eq (path : String) : segmentsOf path = (slashed path).splitOn '/' :=
  Text.splitWhere_eq_splitOnP _ _

theorem join_segmentsOf (path : String) : join (segmentsOf path) = slashed path := by
  rw [segmentsOf_eq]
  exact List.intercalate_splitOn '/'

theorem isSplit_segmentsOf (path : String) : IsSplit (segmentsOf path) where
  ne_nil := by
    rw [segmentsOf_eq]
    exact List.splitOn_ne_nil _ _
  slash_not_mem _ hname hc := Text.not_of_mem_splitWhere hname _ hc (beq_self_eq_true '/')

/-- **Patterns of whole segments.**  Such a pattern accepts the paths whose segments it fits; and
`**/l/**` accepts those that start with `l/` or hold `/l/`. -/
theorem accepts_segmentPattern (path : String) :
    (∀ p : SegmentPattern, accepts p.text path = fits p.segments (segmentsOf path)) ∧
      ∀ l : Literal, accepts l.anywhere.text path = true ↔
        l.chars ++ ['/'] <+: slashed path ∨ '/' :: l.chars ++ ['/'] <:+: slashed path := by
  constructor
  · intro p
    have main := matchChars_textOf p.anything_mem (isSplit_segmentsOf path)
    rw [join_segmentsOf] at main
    rw [accepts, slashed_text]
    exact Bool.eq_iff_iff.mpr main
  · intro l
    rw [accepts, slashed_text]
    exact matchChars_anywhere l _

example : (Literal.anywhere ⟨['a', 'p', 'i'], by simp, by simp⟩).text = "**/api/**" := by
  decide +kernel

example : accepts "**/api/**" "src\\api\\user.py" = true ∧
    accepts "**/api/**" "src/rapi/user.py" = false ∧ accepts "**/api/**" "src/api" = false := by
  decide +kernel

end ArchReview.Glob

import ArchReview.Rule.Layering
import Mathlib.Data.List.Basic

/-!
# Database calls in presentation code

A line of code calls the database if a marker stands in it, at the start of a word if the marker
starts with one, and not right behind a quote (`HasCall`).  The analyzer asks two questions about a
marker instead of one: whether any of its occurrences is at the start of a word, and whether its
*first* occurrence follows a quote (`Flagged`).

**Calls** (`databaseAccess_exact`).  A line without raw SQL has exactly one violation if it is
flagged and none if it is not.  If no marker occurs twice in the line, it is flagged exactly if it
has a call.
-/

namespace ArchReview

/-! ### Occurrences -/

namespace Text

/-- A part stands in a text behind another text. -/
def Occurs (part text before : List Char) : Prop := ∃ after, text = before ++ part ++ after

/-- No occurrence has less before it. -/
def OccursFirst (part text before : List Char) : Prop :=
  Occurs part text before ∧ ∀ other, Occurs part text other → before.length ≤ other.length

theorem Occurs.eq_of_length {part text before other : List Char} (h : Occurs part text before)
    (h' : Occurs part text other) (len : before.length = other.length) : before = other := by
  obtain ⟨after, e⟩ := h
  obtain ⟨after', e'⟩ := h'
  rw [e, List.append_assoc, List.append_assoc] at e'
  exact (List.append_inj e' len).1

theorem OccursFirst.unique {part text before other : List Char}
    (h : OccursFirst part text before) (h' : OccursFirst part text other) : before = other :=
  h.1.eq_of_length h'.1 (Nat.le_antisymm (h.2 _ h'.1) (h'.2 _ h.1))

theorem mem_placesAfter {place : Place} {lead text : List Char} :
    place ∈ placesAfter lead text ↔
      ∃ skipped, place.lead = skipped.reverse ++ lead ∧ text = skipped ++ place.rest := by
  induction text generalizing lead with
  | nil =>
      obtain ⟨before, rest⟩ := place
      simp only [placesAfter, List.mem_singleton, Place.mk.injEq]
      constructor
      · rintro ⟨rfl, rfl⟩
        exact ⟨[], rfl, rfl⟩
      · rintro ⟨skipped, e, none⟩
        obtain ⟨rfl, rfl⟩ := List.append_eq_nil_iff.mp none.symm
        exact ⟨e, rfl⟩
  | cons c cs ih =>
      obtain ⟨before, rest⟩ := place
      rw [placesAfter, List.mem_cons, ih]
      constructor
      · rintro (e | ⟨skipped, e, rfl⟩)
        · cases e
          exact ⟨[], rfl, rfl⟩
        · exact ⟨c :: skipped, by simpa using e, rfl⟩
      · rintro ⟨skipped, e, whole⟩
        cases skipped with
        | nil =>
            left
            simp_all
        | cons d skipped =>
            right
            obtain ⟨rfl, rfl⟩ := List.cons.inj whole
            exact ⟨skipped, by simpa using e, rfl⟩

theorem mem_occurrences {part text : List Char} {place : Place} :
    place ∈ occurrences part text ↔
      text = place.lead.reverse ++ place.rest ∧ part <+: place.rest := by
  simp only [occurrences, places, List.mem_filter, mem_placesAfter, List.append_nil,
    List.isPrefixOf_iff_prefix]
  refine and_congr_left fun _ => ⟨?_, fun h => ⟨place.lead.reverse, by simp, h⟩⟩
  rintro ⟨skipped, e, h⟩
  rw [e, List.reverse_reverse]
  exact h

theorem occurs_of_mem {part text : List Char} {place : Place} (h : place ∈ occurrences part text) :
    Occurs part text place.lead.reverse := by
  obtain ⟨e, after, h⟩ := mem_occurrences.mp h
  exact ⟨after, by rw [e, ← h, List.append_assoc]⟩

theorem exists_place_of_occurs {part text before : List Char} (h : Occurs part text before) :
    ∃ place ∈ occurrences part text, place.lead = before.reverse := by
  obtain ⟨after, e⟩ := h
  refine ⟨⟨before.reverse, part ++ after⟩, mem_occurrences.mpr ⟨?_, List.prefix_append _ _⟩, rfl⟩
  rw [e, List.reverse_reverse, List.append_assoc]

/-- Places are listed from the start of the text. -/
theorem pairwise_placesAfter (lead text : List Char) :
    (placesAfter lead text).Pairwise fun p q => p.lead.length ≤ q.lead.length := by
  induction text generalizing lead with
  | nil => exact List.pairwise_singleton _ _
  | cons c cs ih =>
      rw [placesAfter, List.pairwise_cons]
      refine ⟨fun place h => ?_, ih _⟩
      obtain ⟨skipped, e, -⟩ := mem_placesAfter.mp h
      simp only [e, List.length_append, List.length_cons]
      omega

theorem occursFirst_of_head? {part text : List Char} {place : Place}
    (h : (occurrences part text).head? = some place) :
    OccursFirst part text place.lead.reverse := by
  have sorted : (occurrences part text).Pairwise fun p q => p.lead.length ≤ q.lead.length :=
    (pairwise_placesAfter [] text).filter _
  obtain ⟨rest, e⟩ := List.head?_eq_some_iff.mp h
  refine ⟨occurs_of_mem (by simp [e]), fun other ho => ?_⟩
  obtain ⟨place', hp, lead⟩ := exists_place_of_occurs ho
  have len : place'.lead.length = other.length := by rw [lead, List.length_reverse]
  rw [List.length_reverse, ← len]
  rw [e] at sorted hp
  rcases List.mem_cons.mp hp with rfl | hp
  · exact Nat.le_refl _
  · exact (List.pairwise_cons.mp sorted).1 _ hp

/-- What occurs in a text has a first occurrence in the list. -/
theorem exists_head?_of_occurs {part text before : List Char} (h : Occurs part text before) :
    ∃ place, (occurrences part text).head? = some place := by
  obtain ⟨place, hp, -⟩ := exists_place_of_occurs h
  cases e : occurrences part text with
  | nil =>
      rw [e] at hp
      cases hp
  | cons start rest => exact ⟨start, rfl⟩

theorem occurs_unique {part text before other : List Char}
    (once : (occurrences part text).length ≤ 1) (h : Occurs part text before)
    (h' : Occurs part text other) : before = other := by
  obtain ⟨place, hp, lead⟩ := exists_place_of_occurs h
  obtain ⟨place', hp', lead'⟩ := exists_place_of_occurs h'
  have same : place = place' := by
    cases e : occurrences part text with
    | nil =>
        rw [e] at hp
        cases hp
    | cons start rest =>
        rw [e] at once hp hp'
        obtain rfl : rest = [] := by simpa using once
        rw [List.mem_singleton.mp hp, List.mem_singleton.mp hp']
  exact List.reverse_injective (lead.symm.trans (same ▸ lead'))

end Text

namespace Layering
open Text (Occurs OccursFirst)

/-! ### Markers -/

/-- A marker that starts with a word has no word right before it. -/
def AtWordStart (marker before : List Char) : Prop :=
  marker.head?.any isNameChar = true → before.getLast?.any isNameChar = false

/-- The last character that is not blank is a quote. -/
def AfterQuote (before : List Char) : Prop :=
  ∃ quote ∈ ['"', '\'', '`'], (Text.trimEnd before).getLast? = some quote

/-- Some marker stands in the line, at the start of a word and not behind a quote. -/
def HasCall (line : List Char) : Prop :=
  ∃ m ∈ callMarkers, ∃ before, Occurs m.toList line before ∧ AtWordStart m.toList before ∧
    ¬ AfterQuote before

/-- Some marker stands in the line at the start of a word, and where it stands first it is not
behind a quote. -/
def Flagged (line : List Char) : Prop :=
  ∃ m ∈ callMarkers, (∃ before, Occurs m.toList line before ∧ AtWordStart m.toList before) ∧
    ∃ first, OccursFirst m.toList line first ∧ ¬ AfterQuote first

theorem atWordStart_iff {marker lead : List Char} :
    AtWordStart marker lead.reverse ↔
      (!(marker.head?.any isNameChar) || !(lead.head?.any isNameChar)) = true := by
  rw [AtWordStart, List.getLast?_reverse]
  cases marker.head?.any isNameChar <;> simp

theorem afterQuote_iff {lead : List Char} :
    AfterQuote lead.reverse ↔
      ((Text.trimStart lead).head?.any fun c => ['"', '\'', '`'].contains c) = true := by
  rw [AfterQuote, Text.trimEnd, List.reverse_reverse, List.getLast?_reverse, Text.trimStart]
  cases (lead.dropWhile Text.isBlank).head? with
  | none => simp
  | some c => simp

theorem hasMarker_iff {line marker : List Char} :
    hasMarker line marker = true ↔
      ∃ before, Occurs marker line before ∧ AtWordStart marker before := by
  simp only [hasMarker, List.any_eq_true, ← atWordStart_iff]
  constructor
  · rintro ⟨place, hp, start⟩
    exact ⟨_, Text.occurs_of_mem hp, start⟩
  · rintro ⟨before, ho, start⟩
    obtain ⟨place, hp, lead⟩ := Text.exists_place_of_occurs ho
    exact ⟨place, hp, by rwa [lead, List.reverse_reverse]⟩

/-- Whether a marker counts as quoted is told by where it stands first. -/
theorem isQuoted_iff {line marker first : List Char} (h : OccursFirst marker line first) :
    isQuoted line marker = true ↔ AfterQuote first := by
  obtain ⟨place, e⟩ := Text.exists_head?_of_occurs h.1
  rw [h.unique (Text.occursFirst_of_head? e), afterQuote_iff, isQuoted, e]
  rfl

theorem exists_occursFirst {line marker before : List Char} (h : Occurs marker line before) :
    ∃ first, OccursFirst marker line first := by
  obtain ⟨place, e⟩ := Text.exists_head?_of_occurs h
  exact ⟨_, Text.occursFirst_of_head? e⟩

theorem flagged_iff {line : List Char} :
    Flagged line ↔ ∃ m ∈ callMarkers,
      (hasMarker line m.toList && !isQuoted line m.toList) = true := by
  refine exists_congr fun m => and_congr_right fun _ => ?_
  rw [Bool.and_eq_true, hasMarker_iff]
  refine and_congr_right ?_
  rintro ⟨before, ho, -⟩
  obtain ⟨first, hf⟩ := exists_occursFirst ho
  rw [Bool.not_eq_true', ← Bool.not_eq_true, isQuoted_iff hf]
  exact ⟨fun ⟨other, h, free⟩ => h.unique hf ▸ free, fun free => ⟨first, hf, free⟩⟩

instance (line : List Char) : Decidable (Flagged line) := decidable_of_iff _ flagged_iff.symm

theorem hasCall_iff {line : List Char} :
    HasCall line ↔ ∃ m ∈ callMarkers, ∃ place ∈ Text.occurrences m.toList line,
      (!(m.toList.head?.any isNameChar) || !(place.lead.head?.any isNameChar)) = true ∧
        ¬ ((Text.trimStart place.lead).head?.any fun c => ['"', '\'', '`'].contains c) = true := by
  refine exists_congr fun m => and_congr_right fun _ => ?_
  simp only [← atWordStart_iff, ← afterQuote_iff]
  constructor
  · rintro ⟨before, ho, start, free⟩
    obtain ⟨place, hp, lead⟩ := Text.exists_place_of_occurs ho
    exact ⟨place, hp, by rwa [lead, List.reverse_reverse], by rwa [lead, List.reverse_reverse]⟩
  · rintro ⟨place, hp, start, free⟩
    exact ⟨_, Text.occurs_of_mem hp, start, free⟩

instance (line : List Char) : Decidable (HasCall line) := decidable_of_iff _ hasCall_iff.symm

/-- Where no marker stands twice, the two questions are about the same occurrence. -/
theorem flagged_iff_hasCall {line : List Char}
    (once : ∀ m ∈ callMarkers, ∀ before other, Occurs m.toList line before →
      Occurs m.toList line other → before = other) :
    Flagged line ↔ HasCall line := by
  refine exists_congr fun m => and_congr_right fun hm => ?_
  constructor
  · rintro ⟨⟨before, ho, start⟩, first, hf, free⟩
    exact ⟨before, ho, start, once m hm _ _ hf.1 ho ▸ free⟩
  · rintro ⟨before, ho, start, free⟩
    obtain ⟨first, hf⟩ := exists_occursFirst ho
    exact ⟨⟨before, ho, start⟩, first, hf, once m hm _ _ ho hf.1 ▸ free⟩

/-! ### The violations of a line -/

theorem databaseUse?_eq_none_iff {line : List Char} (plain : hasRawSql line = false) :
    databaseUse? line = none ↔ ¬ Flagged line := by
  rw [databaseUse?, plain, flagged_iff]
  simp

section Numbered

variable {α β : Type} {find : α × Nat → Option β} {number : β → Option Nat}
  (numbered : ∀ a n b, find (a, n) = some b → number b = some n)
include numbered

theorem le_of_mem_filterMap_zipIdx {lines : List α} {start : Nat} {b : β}
    (h : b ∈ (lines.zipIdx start).filterMap find) : ∃ n, start ≤ n ∧ number b = some n := by
  obtain ⟨⟨a, n⟩, ha, hb⟩ := List.mem_filterMap.mp h
  exact ⟨n, List.le_snd_of_mem_zipIdx ha, numbered a n b hb⟩

/-- Of what is found in numbered lines, the finds of one line. -/
theorem filter_filterMap_zipIdx {lines : List α} {start k : Nat} {a : α} (h : lines[k]? = some a) :
    ((lines.zipIdx start).filterMap find).filter (fun b => number b == some (start + k)) =
      (find (a, start + k)).toList := by
  induction lines generalizing start k with
  | nil => simp at h
  | cons line lines ih =>
      have first : ∀ b, find (line, start) = some b → number b = some start :=
        numbered line start
      rw [List.zipIdx_cons]
      cases k with
      | zero =>
          obtain rfl : line = a := by simpa using h
          -- all later finds have larger numbers
          have later : ((lines.zipIdx (start + 1)).filterMap find).filter
              (fun b => number b == some (start + 0)) = [] := by
            refine List.filter_eq_nil_iff.mpr fun b hb same => ?_
            obtain ⟨n, hn, e⟩ := le_of_mem_filterMap_zipIdx numbered hb
            rw [e, beq_iff_eq, Option.some.injEq] at same
            omega
          rw [Nat.add_zero] at later ⊢
          cases e : find (line, start) with
          | none => simp [e, later]
          | some b => simp [e, later, first b e]
      | succ k =>
          have rest := @ih (start + 1) k (by simpa using h)
          rw [show start + (k + 1) = start + 1 + k by omega]
          cases e : find (line, start) with
          | none => simpa [List.filterMap_cons, e] using rest
          | some b =>
              have other : (number b == some (start + 1 + k)) = false := by
                rw [first b e, beq_eq_false_iff_ne, ne_eq, Option.some.injEq]
                omega
              simpa [List.filterMap_cons, e, other] using rest

end Numbered

/-- A line that is no comment has a violation exactly if it uses the database. -/
theorem filter_databaseAccess {f : SourceOutline} {k : Nat} {line : List Char}
    (hline : (Text.lines f.text.toList)[k]? = some line) (code : isCommentLine line = false) :
    (databaseUse? line = none →
      (databaseAccess f).filter (fun v => v.line == some (k + 1)) = []) ∧
    (databaseUse? line ≠ none → ∃ v,
      (databaseAccess f).filter (fun v => v.line == some (k + 1)) = [v] ∧ v.rule = "LAYER-001" ∧
        v.path = f.outline.path) := by
  rw [databaseAccess, codeLines, List.filterMap_filterMap, Nat.add_comm k 1]
  rw [filter_filterMap_zipIdx ?numbered hline]
  case numbered =>
    intro line n v hv
    obtain ⟨⟨m, line'⟩, hcode, hv⟩ := Option.bind_eq_some_iff.mp hv
    obtain ⟨use, -, rfl⟩ := Option.map_eq_some_iff.mp hv
    dsimp only at hcode ⊢
    split at hcode
    · cases hcode
    · rw [(Prod.mk.inj (Option.some.inj hcode)).1]
  cases use : databaseUse? line with
  | none => simp [code, use]
  | some found => simp [code, use]

/-- **Calls.**  A line of code without raw SQL has one violation if it is flagged, and none else.
If no marker stands in it twice, it is flagged exactly if it has a call. -/
theorem databaseAccess_exact (f : SourceOutline) (k : Nat) (line : List Char)
    (hline : (Text.lines f.text.toList)[k]? = some line) (code : isCommentLine line = false)
    (plain : hasRawSql line = false) :
    let reported := (databaseAccess f).filter fun v => v.line == some (k + 1)
    (Flagged line → ∃ v, reported = [v] ∧ v.rule = "LAYER-001" ∧ v.path = f.outline.path) ∧
      (¬ Flagged line → reported = []) ∧
      ((∀ m ∈ callMarkers, ∀ before other, Occurs m.toList line before →
        Occurs m.toList line other → before = other) → (Flagged line ↔ HasCall line)) := by
  intro reported
  have violations := filter_databaseAccess hline code
  rw [databaseUse?_eq_none_iff plain, ne_eq, databaseUse?_eq_none_iff plain, not_not] at violations
  exact ⟨violations.2, violations.1, flagged_iff_hasCall⟩

/-- A script with a call in its second line. -/
def queryScript : SourceOutline :=
  ⟨{ path := ⟨"src/pages/list.ts"⟩, language := .typeScript },
    "// db.query(sql)\nconst rows = db.query(sql);\n"⟩

theorem databaseAccess_exact_queryScript :
    let line := "const rows = db.query(sql);".toList
    (Text.lines queryScript.text.toList)[1]? = some line ∧ isCommentLine line = false ∧
      hasRawSql line = false ∧ HasCall line ∧
      ∃ v, (databaseAccess queryScript).filter (fun v => v.line == some 2) = [v] ∧
        v.rule = "LAYER-001" ∧ v.path = ⟨"src/pages/list.ts"⟩ := by
  intro line
  have hline : (Text.lines queryScript.text.toList)[1]? = some line := by decide +kernel
  have code : isCommentLine line = false := by decide +kernel
  have plain : hasRawSql line = false := by decide +kernel
  have once : ∀ m ∈ callMarkers, (Text.occurrences m.toList line).length ≤ 1 := by decide +kernel
  obtain ⟨flagged, -, calls⟩ := databaseAccess_exact queryScript 1 line hline code plain
  have hcall : HasCall line := by decide +kernel
  refine ⟨hline, code, plain, hcall, flagged ((calls ?_).mpr hcall)⟩
  exact fun m hm _ _ => Text.occurs_unique (once m hm)

/-! ### Lines in which a marker stands twice -/

/-- A script of one line. -/
def listScript (line : String) : SourceOutline :=
  ⟨{ path := ⟨"src/pages/list.ts"⟩, language := .typeScript }, line ++ "\n"⟩

/-- A call behind a quoted marker is missed, and a quoted marker behind a longer word is taken for a
call. -/
theorem databaseAccess_misjudges :
    let masked := "run(\".query(\", db.query(sql));"
    let quoted := "precursor(\"cursor(\");"
    (isCommentLine masked.toList = false ∧ hasRawSql masked.toList = false ∧
      HasCall masked.toList ∧ databaseAccess (listScript masked) = []) ∧
    (isCommentLine quoted.toList = false ∧ hasRawSql quoted.toList = false ∧
      ¬ HasCall quoted.toList ∧ (databaseAccess (listScript quoted)).length = 1) := by
  decide +kernel

end Layering

end ArchReview

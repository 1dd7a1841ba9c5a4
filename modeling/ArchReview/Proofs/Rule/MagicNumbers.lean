import ArchReview.Proofs.Rule.Thresholds
import ArchReview.Proofs.Text.NameSet

/-!
# Magic numbers

The rule looks at the literals that are neither trivial nor in a constant (`Unnamed`), and at the
texts that stand often enough among them (`Repeats`).  It reports nothing if there is no such text,
and otherwise one violation, for all of them.

What the violation says depends on two ascending lists only: the repeated texts
(`mem_repeatedValues`) and the lines where one of them stands (`mem_repeatedLines`).  An ascending
list is told by its elements, so the order of the literals does not matter.
-/

namespace ArchReview.Design

/-! ### Ascending lines -/

theorem mem_insertLine {line l : Nat} : ∀ {lines : List Nat},
    l ∈ insertLine line lines ↔ l = line ∨ l ∈ lines
  | [] => by simp [insertLine]
  | k :: lines => by
      rw [insertLine]
      split
      · rw [List.mem_cons]
      · split
        · rename_i e
          rw [eq_of_beq e, List.mem_cons, ← or_assoc, or_self]
        · rw [List.mem_cons, List.mem_cons, mem_insertLine]
          exact or_left_comm

/-- A line is put where it keeps the order. -/
theorem ascending_insertLine {line : Nat} : ∀ {lines : List Nat}, lines.Pairwise (· < ·) →
    (insertLine line lines).Pairwise (· < ·)
  | [], _ => List.pairwise_singleton _ _
  | k :: lines, h => by
      obtain ⟨hk, hlines⟩ := List.pairwise_cons.mp h
      rw [insertLine]
      split
      · rename_i hlt
        refine List.pairwise_cons.mpr ⟨fun l hl => ?_, h⟩
        rcases List.mem_cons.mp hl with rfl | hl
        · exact hlt
        · exact hlt.trans (hk l hl)
      · split
        · exact h
        · rename_i hle hne
          refine List.pairwise_cons.mpr ⟨fun l hl => ?_, ascending_insertLine hlines⟩
          rcases mem_insertLine.mp hl with rfl | hl
          · have hne : l ≠ k := by simpa using hne
            omega
          · exact hk l hl

/-- The lines of some literals, each once. -/
def linesOf (literals : List NumberLiteral) : List Nat :=
  literals.foldl (fun ls n => insertLine n.line ls) []

theorem mem_linesOf {l : Nat} {literals : List NumberLiteral} :
    l ∈ linesOf literals ↔ ∃ n ∈ literals, n.line = l := by
  have from_any : ∀ (literals : List NumberLiteral) (lines : List Nat),
      l ∈ literals.foldl (fun ls n => insertLine n.line ls) lines ↔
        (∃ n ∈ literals, n.line = l) ∨ l ∈ lines := by
    intro literals
    induction literals with
    | nil => simp
    | cons n literals ih =>
        intro lines
        rw [List.foldl_cons, ih, mem_insertLine, List.exists_mem_cons_iff, @eq_comm _ l]
        exact or_left_comm.trans or_assoc.symm
  simpa [linesOf] using from_any literals []

theorem ascending_linesOf (literals : List NumberLiteral) :
    (linesOf literals).Pairwise (· < ·) := by
  have from_any : ∀ (literals : List NumberLiteral) (lines : List Nat), lines.Pairwise (· < ·) →
      (literals.foldl (fun ls n => insertLine n.line ls) lines).Pairwise (· < ·) := by
    intro literals
    induction literals with
    | nil => exact fun _ h => h
    | cons n literals ih => exact fun lines h => ih _ (ascending_insertLine h)
  exact from_any literals [] List.Pairwise.nil

/-! ### Repeated texts -/

/-- A literal that ought to have a name: it is neither trivial nor in a constant. -/
def Unnamed (n : NumberLiteral) : Prop := n.inConstant = false ∧ isTrivial n.value = false

instance (n : NumberLiteral) : Decidable (Unnamed n) := inferInstanceAs (Decidable (_ ∧ _))

/-- A text stands often enough among the literals that ought to have a name. -/
def Repeats (t : Thresholds) (o : Outline) (text : String) : Prop :=
  (∃ n ∈ o.numbers, Unnamed n ∧ n.value = text) ∧
    t.magicNumberMinOccurrences ≤ o.numbers.countP fun n => Unnamed n ∧ n.value = text

instance (t : Thresholds) (o : Outline) (text : String) : Decidable (Repeats t o text) :=
  inferInstanceAs (Decidable (_ ∧ _))

/-- A repeated text stands on a line, as a literal that ought to have a name. -/
def RepeatsOn (t : Thresholds) (o : Outline) (line : Nat) : Prop :=
  ∃ n ∈ o.numbers, Unnamed n ∧ Repeats t o n.value ∧ n.line = line

theorem mem_unnamed {o : Outline} {n : NumberLiteral} :
    n ∈ unnamed o ↔ n ∈ o.numbers ∧ Unnamed n := by
  simp [unnamed, Unnamed]

theorem length_filter_unnamed (o : Outline) (text : String) :
    ((unnamed o).filter fun n => n.value == text).length =
      o.numbers.countP fun n => Unnamed n ∧ n.value = text := by
  rw [unnamed, List.filter_filter, List.countP_eq_length_filter]
  congr 2
  funext n
  rw [Bool.eq_iff_iff]
  simp [Unnamed, and_comm]

theorem mem_repeatedValues {t : Thresholds} {o : Outline} {text : String} :
    text ∈ repeatedValues t o ↔ Repeats t o text := by
  simp only [repeatedValues, List.mem_filter, Text.mem_nameSet, List.mem_map, mem_unnamed,
    length_filter_unnamed, decide_eq_true_eq, Repeats, and_assoc]

theorem ascending_repeatedValues (t : Thresholds) (o : Outline) :
    (repeatedValues t o).Pairwise fun a b => Text.compareStrings a b = .lt :=
  (Text.ascending_nameSet _).filter _

/-- The lines where a repeated text stands. -/
def repeatedLines (t : Thresholds) (o : Outline) : List Nat := linesOf (repeatedLiterals t o)

theorem mem_repeatedLines {t : Thresholds} {o : Outline} {line : Nat} :
    line ∈ repeatedLines t o ↔ RepeatsOn t o line := by
  simp only [repeatedLines, mem_linesOf, repeatedLiterals, List.mem_filter, mem_unnamed,
    List.contains_iff_mem, mem_repeatedValues, RepeatsOn, and_assoc]

theorem ascending_repeatedLines (t : Thresholds) (o : Outline) :
    (repeatedLines t o).Pairwise (· < ·) := ascending_linesOf _

/-- A text is repeated exactly if it is on some line. -/
theorem exists_repeats_iff {t : Thresholds} {o : Outline} :
    (∃ text, Repeats t o text) ↔ ∃ line, RepeatsOn t o line := by
  constructor
  · rintro ⟨text, h⟩
    obtain ⟨⟨n, hn, hunnamed, rfl⟩, -⟩ := id h
    exact ⟨n.line, n, hn, hunnamed, h, rfl⟩
  · rintro ⟨-, n, -, -, h, -⟩
    exact ⟨n.value, h⟩

/-! ### The violation -/

variable {t : Thresholds} {o o' : Outline}

theorem magicNumbers_of_lines_nil (h : repeatedLines t o = []) : magicNumbers t o = [] := by
  unfold magicNumbers
  dsimp only
  split
  · rfl
  · rename_i e
    exact absurd (h.symm.trans e) (List.cons_ne_nil _ _).symm

theorem magicNumbers_of_lines_cons {first : Nat} {rest : List Nat}
    (h : repeatedLines t o = first :: rest) :
    ∃ v, magicNumbers t o = [v] ∧ v.rule = "PAT-004" ∧ v.path = o.path ∧ v.line = some first ∧
      v.details =
        [("lines", ",".intercalate (((repeatedLines t o).take maxExamples).map toString)),
         ("values", ",".intercalate (repeatedValues t o))] := by
  have hkeys : Text.compareStrings "lines" "values" = .lt := by decide +kernel
  unfold magicNumbers
  dsimp only
  split
  · rename_i e
    exact absurd (e.symm.trans h) (List.cons_ne_nil _ _).symm
  · rename_i e
    have hfirst := (List.cons.inj (h.symm.trans e)).1
    refine ⟨_, rfl, rfl, rfl, congrArg some hfirst.symm, ?_⟩
    simp only [Text.table, Text.insertEntry, hkeys, List.foldl_cons, List.foldl_nil]
    rfl

/-- What is reported depends on the path, the repeated texts and their lines only. -/
theorem magicNumbers_congr (hpath : o'.path = o.path)
    (hvalues : repeatedValues t o' = repeatedValues t o)
    (hlines : repeatedLines t o' = repeatedLines t o) : magicNumbers t o' = magicNumbers t o := by
  unfold repeatedLines linesOf repeatedLiterals repeatedValues at hlines
  unfold repeatedValues at hvalues
  unfold magicNumbers
  dsimp only
  rw [hlines, hvalues, hpath]

/-! ### The order of literals -/

section Perm
variable (h : o'.numbers.Perm o.numbers)
include h

theorem repeats_perm (text : String) : Repeats t o' text ↔ Repeats t o text := by
  simp only [Repeats, h.mem_iff, h.countP_eq]

theorem repeatsOn_perm (line : Nat) : RepeatsOn t o' line ↔ RepeatsOn t o line := by
  simp only [RepeatsOn, h.mem_iff, repeats_perm h]

theorem repeatedValues_perm : repeatedValues t o' = repeatedValues t o :=
  eq_of_pairwise_lt (ascending_repeatedValues t o') (ascending_repeatedValues t o) fun text => by
    rw [mem_repeatedValues, mem_repeatedValues, repeats_perm h]

theorem repeatedLines_perm : repeatedLines t o' = repeatedLines t o :=
  @eq_of_pairwise_lt _ compare _ _ _
    ((ascending_repeatedLines t o').imp Nat.compare_eq_lt.mpr)
    ((ascending_repeatedLines t o).imp Nat.compare_eq_lt.mpr) fun line => by
      rw [mem_repeatedLines, mem_repeatedLines, repeatsOn_perm h]

end Perm

/-- **Magic numbers are reported once for a file, in full and in order.**  There is no violation if
no text is repeated, and one otherwise: it lists the repeated texts ascending, stands on the first
of their lines and lists the first five.  The order of the literals does not matter. -/
theorem magicNumbers_exact (t : Thresholds) (o : Outline) :
    ((∀ text, ¬ Repeats t o text) → magicNumbers t o = []) ∧
      ((∃ text, Repeats t o text) →
        ∃ (v : Violation) (values : List String) (lines : List Nat) (first : Nat),
        magicNumbers t o = [v] ∧
        (values.Pairwise fun a b => Text.compareStrings a b = .lt) ∧
        (∀ text, text ∈ values ↔ Repeats t o text) ∧
        lines.Pairwise (· < ·) ∧ (∀ line, line ∈ lines ↔ RepeatsOn t o line) ∧
        v.rule = "PAT-004" ∧ v.path = o.path ∧
        v.line = some first ∧ RepeatsOn t o first ∧ (∀ line, RepeatsOn t o line → first ≤ line) ∧
        v.details =
          [("lines", ",".intercalate ((lines.take 5).map toString)),
           ("values", ",".intercalate values)]) ∧
      ∀ o' : Outline, o'.path = o.path → o'.numbers.Perm o.numbers →
        magicNumbers t o' = magicNumbers t o := by
  refine ⟨fun hnone => magicNumbers_of_lines_nil ?_, fun hsome => ?_, fun o' hpath h =>
    magicNumbers_congr hpath (repeatedValues_perm h) (repeatedLines_perm h)⟩
  · refine List.eq_nil_iff_forall_not_mem.mpr fun line hline => ?_
    obtain ⟨text, htext⟩ := exists_repeats_iff.mpr ⟨line, mem_repeatedLines.mp hline⟩
    exact hnone text htext
  · obtain ⟨line, hline⟩ := exists_repeats_iff.mp hsome
    have hascending := ascending_repeatedLines t o
    cases e : repeatedLines t o with
    | nil => exact absurd (mem_repeatedLines.mpr hline) (e ▸ List.not_mem_nil)
    | cons first rest =>
        obtain ⟨v, hv, hrule, hpath, hfirst, hdetails⟩ := magicNumbers_of_lines_cons e
        have hmem (line : Nat) : line ∈ first :: rest ↔ RepeatsOn t o line :=
          e ▸ mem_repeatedLines
        rw [e] at hascending hdetails
        refine ⟨v, repeatedValues t o, first :: rest, first, hv, ascending_repeatedValues t o,
          fun _ => mem_repeatedValues, hascending, hmem, hrule, hpath, hfirst,
          (hmem first).mp List.mem_cons_self, fun line hline => ?_, hdetails⟩
        rcases List.mem_cons.mp ((hmem line).mpr hline) with rfl | hrest
        · exact le_rfl
        · exact ((List.pairwise_cons.mp hascending).1 line hrest).le

/-- A file that repeats two numbers, once on one line, besides a constant, a trivial number and one
that is not repeated. -/
def pricing : Outline where
  path := ⟨"pricing.py"⟩
  language := .python
  numbers :=
    [⟨"42", 1, true⟩, ⟨"7", 2, false⟩, ⟨"42", 9, false⟩, ⟨"0x1F", 4, false⟩, ⟨"42", 3, false⟩,
     ⟨"1", 2, false⟩, ⟨"0x1F", 9, false⟩, ⟨"42", 6, false⟩, ⟨"0x1F", 5, false⟩, ⟨"0x1F", 8, false⟩]

theorem magicNumbers_exact_pricing :
    Repeats {} pricing "42" ∧ (∀ text, ¬ Repeats {} { pricing with numbers := [] } text) ∧
      magicNumbers {} { pricing with numbers := [] } = [] ∧
      (∃ v, magicNumbers {} pricing = [v] ∧ v.line = some 3 ∧
        v.details = [("lines", "3,4,5,6,8"), ("values", "0x1F,42")]) ∧
      magicNumbers {} { pricing with numbers := pricing.numbers.reverse } =
        magicNumbers {} pricing := by
  have hrepeats : Repeats {} pricing "42" := by decide +kernel
  have hempty : ∀ text, ¬ Repeats {} { pricing with numbers := [] } text := by simp [Repeats]
  have hsaid : (magicNumbers {} pricing).map (fun v => (v.line, v.details)) =
      [(some 3, [("lines", "3,4,5,6,8"), ("values", "0x1F,42")])] := by decide +kernel
  obtain ⟨-, honce, hperm⟩ := magicNumbers_exact {} pricing
  obtain ⟨v, -, -, -, hv, -⟩ := honce ⟨"42", hrepeats⟩
  refine ⟨hrepeats, hempty, (magicNumbers_exact {} _).1 hempty, ⟨v, hv, ?_⟩,
    hperm _ rfl pricing.numbers.reverse_perm⟩
  simpa [hv] using hsaid

end ArchReview.Design

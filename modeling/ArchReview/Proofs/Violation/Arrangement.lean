import ArchReview.Proofs.Violation.Order
import Mathlib.Data.List.Nodup
import Mathlib.Data.Prod.Lex
import Mathlib.Data.String.Basic

/-!
# The arrangement of violations

A report lists its violations by a key of six parts (`Violation.sortKey`), the keys in
lexicographic order (`Violation.Before`): the worst severity first, then paths component by
component, lines with an absent one last, and three texts.  The comparison that sorts decides this
order, because each of its parts decides the order of one part of the key (`Decides`).

**Canonical form** (`Violation.arrange_canonical`).  Arranging violations only permutes them, up to
their ids; it puts them into the order of their keys and numbers them from one with distinct ids.
What is arranged stays as it is, and violations with distinct keys are arranged alike from
whatever order they come in.
-/

namespace ArchReview

/-! ### Comparisons and the orders they decide -/

/-- The comparison finds what stands before what, and what is equal. -/
structure Decides {α : Type} (cmp : α → α → Ordering) (before : α → α → Prop) : Prop where
  lt_iff : ∀ a b, cmp a b = .lt ↔ before a b
  eq_iff : ∀ a b, cmp a b = .eq ↔ a = b

namespace Decides

variable {α β : Type} {cmp : α → α → Ordering} {before : α → α → Prop}

/-- The parts of a pair one after the other. -/
theorem prod {cmp' : β → β → Ordering} {before' : β → β → Prop} (h : Decides cmp before)
    (h' : Decides cmp' before') :
    Decides (fun a b : α × β => (cmp a.1 b.1).then (cmp' a.2 b.2)) (Prod.Lex before before') where
  lt_iff a b := by
    rw [Ordering.then_eq_lt, Prod.lex_def, h.lt_iff, h.eq_iff, h'.lt_iff]
  eq_iff a b := by
    rw [Ordering.then_eq_eq, h.eq_iff, h'.eq_iff, Prod.ext_iff]

/-- The elements of a list one after the other. -/
theorem list (h : Decides cmp before) : Decides (List.compareLex cmp) (List.Lex before) where
  lt_iff a b := by
    induction a generalizing b with
    | nil => cases b <;> simp [List.compareLex_nil_nil, List.compareLex_nil_cons]
    | cons x a ih =>
        cases b with
        | nil => simp [List.compareLex_cons_nil]
        | cons y b =>
            rw [List.compareLex_cons_cons, List.cons_lex_cons_iff, Ordering.then_eq_lt, h.lt_iff,
              h.eq_iff, ih]
  eq_iff a b := by
    induction a generalizing b with
    | nil => cases b <;> simp [List.compareLex_nil_nil, List.compareLex_nil_cons]
    | cons x a ih =>
        cases b with
        | nil => simp [List.compareLex_cons_nil]
        | cons y b =>
            rw [List.compareLex_cons_cons, Ordering.then_eq_eq, h.eq_iff, ih, List.cons.injEq]

end Decides

/-- Texts by their characters, and these by code point. -/
theorem Text.decides_compareStrings : Decides compareStrings (· < ·) := by
  have chars : Decides (compareOn Char.toNat) (· < ·) :=
    ⟨fun _ _ => Nat.compare_eq_lt, fun _ _ => Nat.compare_eq_eq.trans Char.toNat_inj⟩
  refine ⟨fun s t => ?_, fun s t => ?_⟩ <;> rw [compareStrings, compareChars_eq_compareLex]
  · rw [chars.list.lt_iff, String.lt_iff_toList_lt]
    rfl
  · rw [chars.list.eq_iff, String.toList_inj]

/-- Components by kind, and those of one kind by their texts. -/
def Component.Before (a b : Component) : Prop :=
  a.rank < b.rank ∨ a.rank = b.rank ∧ a.text < b.text

theorem Component.decides_compare : Decides Component.compare Component.Before where
  lt_iff a b := by
    rw [compare_eq_compareLex, compareLex, Ordering.then_eq_lt, compareOn, Nat.compare_eq_lt,
      Nat.compare_eq_eq, Text.decides_compareStrings.lt_iff]
    rfl
  eq_iff _ _ := Std.LawfulEqCmp.compare_eq_iff_eq

theorem Path.decides_compareComponents :
    Decides compareComponents (List.Lex Component.Before) := by
  rw [funext₂ compareComponents_eq_compareLex]
  exact Component.decides_compare.list

namespace Violation

/-- A line stands before the lines below it, and before an absent one. -/
inductive LineBefore : Option Nat → Option Nat → Prop
  | given {a b : Nat} (h : a < b) : LineBefore (some a) (some b)
  | absent {a : Nat} : LineBefore (some a) none

theorem decides_compareLines : Decides compareLines LineBefore where
  lt_iff a b := by
    cases a with
    | none => cases b <;> (constructor <;> intro h <;> cases h)
    | some a =>
        cases b with
        | none => exact ⟨fun _ => .absent, fun _ => rfl⟩
        | some b =>
            rw [compareLines, Nat.compare_eq_lt]
            refine ⟨.given, fun h => ?_⟩
            cases h
            assumption
  eq_iff a b := by cases a <;> cases b <;> simp [compareLines]

theorem decides_severity :
    Decides (fun s t : Severity => Ord.compare t.rank s.rank) (fun s t => t.rank < s.rank) where
  lt_iff _ _ := Nat.compare_eq_lt
  eq_iff s t := by
    rw [Nat.compare_eq_eq]
    cases s <;> cases t <;> decide

/-! ### The key of a violation -/

/-- What the order of the report looks at, part by part. -/
def sortKey (v : Violation) :
    Severity × List Component × Option Nat × String × String × String :=
  (v.severity, v.path.components, v.line, v.rule, v.title, v.description)

/-- The key of `v` is below that of `w`: the first part in which they differ decides. -/
def Before (v w : Violation) : Prop :=
  Prod.Lex (fun s t => t.rank < s.rank)
    (Prod.Lex (List.Lex Component.Before)
      (Prod.Lex LineBefore
        (Prod.Lex (· < ·) (Prod.Lex (· < ·) (· < ·))))) v.sortKey w.sortKey

theorem compare_iff (v w : Violation) :
    (v.compare w = .lt ↔ v.Before w) ∧ (v.compare w = .eq ↔ v.sortKey = w.sortKey) := by
  have texts := Text.decides_compareStrings.prod <|
    Text.decides_compareStrings.prod Text.decides_compareStrings
  have keys := decides_severity.prod <| Path.decides_compareComponents.prod <|
    decides_compareLines.prod texts
  exact ⟨keys.lt_iff v.sortKey w.sortKey, keys.eq_iff v.sortKey w.sortKey⟩

theorem le_iff (v w : Violation) : v.le w = true ↔ v.Before w ∨ v.sortKey = w.sortKey := by
  rw [← (compare_iff v w).1, ← (compare_iff v w).2, le]
  cases v.compare w <;> decide

theorem sortKey_eq_of_tie {v w : Violation} (hvw : v.le w = true) (hwv : w.le v = true) :
    v.sortKey = w.sortKey :=
  (compare_iff v w).2.mp (cmp_eq_of_ne_gt compare hvw hwv)

/-- Violations with distinct keys are sorted alike, whatever order they come in. -/
theorem mergeSort_eq_of_sortKey_nodup {vs ws : List Violation} (h : ws.Perm vs)
    (distinct : (vs.map sortKey).Nodup) : ws.mergeSort le = vs.mergeSort le := by
  have sorted (l : List Violation) : (l.mergeSort le).Pairwise fun v w => v.le w = true :=
    List.pairwise_mergeSort le_trans le_total l
  have perm : (ws.mergeSort le).Perm (vs.mergeSort le) :=
    (List.mergeSort_perm ws le).trans (h.trans (List.mergeSort_perm vs le).symm)
  refine perm.eq_of_pairwise (fun v w hv hw hvw hwv => ?_) (sorted ws) (sorted vs)
  have hv : v ∈ vs := h.mem_iff.mp (List.mem_mergeSort.mp hv)
  have hw : w ∈ vs := List.mem_mergeSort.mp hw
  exact List.inj_on_of_nodup_map distinct hv hw (sortKey_eq_of_tie hvw hwv)

/-! ### Ids -/

/-- The id of number `n`: a `V` and the digits of `n`, four of them or as many as it needs. -/
def IsId (n : Nat) (id : String) : Prop :=
  ∃ digits : List Char, id.toList = 'V' :: digits ∧ (∀ d ∈ digits, d.isDigit = true) ∧
    Nat.ofDigitChars 10 digits 0 = n ∧
    (digits.length = 4 ∨ 4 < digits.length ∧ 10 ^ (digits.length - 1) ≤ n)

/-- An id is the id of one number. -/
theorem IsId.unique {n m : Nat} {id : String} (hn : IsId n id) (hm : IsId m id) : n = m := by
  obtain ⟨digits, text, -, rfl, -⟩ := hn
  obtain ⟨digits', text', -, rfl, -⟩ := hm
  rw [(List.cons.inj (text.symm.trans text')).2]

theorem isId_idText (n : Nat) : IsId n (idText n) := by
  refine ⟨List.replicate (4 - (Nat.toDigits 10 n).length) '0' ++ Nat.toDigits 10 n, ?_, ?_, ?_, ?_⟩
  · simp [idText, Decimal.padLeft, Nat.toString_eq_repr, Nat.repr_eq_ofList_toDigits]
  · intro d hd
    rcases List.mem_append.mp hd with hd | hd
    · rw [List.eq_of_mem_replicate hd]
      decide
    · exact Nat.isDigit_of_mem_toDigits (by decide) (by decide) hd
  · simp [Nat.ofDigitChars_append]
  · -- a number with more than four digits is not padded
    rw [List.length_append, List.length_replicate]
    by_cases short : (Nat.toDigits 10 n).length ≤ 4
    · left
      omega
    · right
      have width : 4 - (Nat.toDigits 10 n).length + (Nat.toDigits 10 n).length =
          (Nat.toDigits 10 n).length := by omega
      rw [width]
      refine ⟨by omega, Nat.le_of_not_lt fun small => ?_⟩
      have := (Nat.length_toDigits_le_iff (by decide) (by omega)).mpr small
      omega

/-- Different numbers have different ids, also those with more than four digits. -/
theorem idText_injective : Function.Injective idText := by
  intro n m h
  have hm : IsId m (idText n) := by
    rw [h]
    exact isId_idText m
  exact (isId_idText n).unique hm

theorem map_id_number (vs : List Violation) (n : Nat) :
    (number n vs).map id = (List.range' n vs.length).map idText := by
  induction vs generalizing n with
  | nil => rfl
  | cons v vs ih =>
      rw [number, List.map_cons, ih, List.length_cons, List.range'_succ, List.map_cons]

theorem number_number (vs : List Violation) (n m : Nat) :
    number n (number m vs) = number n vs := by
  induction vs generalizing n m with
  | nil => rfl
  | cons v vs ih => simp only [number, ih]

theorem length_number (vs : List Violation) (n : Nat) : (number n vs).length = vs.length := by
  have h := congrArg List.length (@map_number _ unnumbered (fun _ _ => rfl) vs n)
  rwa [List.length_map, List.length_map] at h

/-- Numbering sorted violations leaves them sorted. -/
theorem pairwise_le_number {vs : List Violation} (h : vs.Pairwise fun v w => v.le w = true)
    (n : Nat) : (number n vs).Pairwise fun v w => v.le w = true := by
  have kept (ws : List Violation) : (ws.map unnumbered).Pairwise (fun v w => v.le w = true) ↔
      ws.Pairwise fun v w => v.le w = true := List.pairwise_map
  rwa [← kept, map_number fun _ _ => rfl, kept]

/-! ### Arrangements -/

/-- `ws` are the violations `vs` as a report lists them. -/
structure IsArrangement (vs ws : List Violation) : Prop where
  /-- Nothing is lost or changed but the ids. -/
  perm : (ws.map unnumbered).Perm (vs.map unnumbered)
  ordered : ws.Pairwise fun v w => v.Before w ∨ v.sortKey = w.sortKey
  numbered : List.Forall₂ IsId (List.range' 1 ws.length) (ws.map id)
  ids_nodup : (ws.map id).Nodup

theorem pairwise_le_arrange (vs : List Violation) :
    (arrange vs).Pairwise fun v w => v.le w = true :=
  pairwise_le_number (List.pairwise_mergeSort le_trans le_total vs) 1

theorem isArrangement_arrange (vs : List Violation) : IsArrangement vs (arrange vs) where
  perm := by
    rw [arrange, map_number fun _ _ => rfl]
    exact (List.mergeSort_perm vs le).map unnumbered
  ordered := (pairwise_le_arrange vs).imp fun h => (le_iff _ _).mp h
  numbered := by
    rw [arrange, length_number, map_id_number, List.forall₂_map_right_iff, List.forall₂_same]
    exact fun n _ => isId_idText n
  ids_nodup := by
    rw [arrange, map_id_number]
    exact (List.nodup_range' ..).map idText_injective

/-- **Canonical form.**  An arrangement lists all violations in the order of their keys, with
distinct ids from one on.  It is its own arrangement, and violations with distinct keys have one
arrangement in whatever order they come. -/
theorem arrange_canonical (vs : List Violation) :
    IsArrangement vs (arrange vs) ∧ arrange (arrange vs) = arrange vs ∧
      ∀ ws, ws.Perm vs → (vs.map sortKey).Nodup → arrange ws = arrange vs := by
  refine ⟨isArrangement_arrange vs, ?_, fun ws h distinct => ?_⟩
  · rw [arrange, List.mergeSort_of_pairwise (pairwise_le_arrange vs), arrange, number_number]
  · rw [arrange, arrange, mergeSort_eq_of_sortKey_nodup h distinct]

/-- Two violations that differ in nothing but their lines, one of them without any. -/
def missingLine : List Violation :=
  [{ rule := "PAT-004", category := .pattern, severity := .low, title := "Magic numbers",
     path := ⟨"b.py"⟩ },
   { rule := "PAT-004", category := .pattern, severity := .low, title := "Magic numbers",
     path := ⟨"b.py"⟩, line := some 3 }]

theorem arrange_canonical_missingLine :
    missingLine.reverse.Perm missingLine ∧ (missingLine.map sortKey).Nodup ∧
      arrange missingLine.reverse = arrange missingLine :=
  have perm := List.reverse_perm missingLine
  have distinct : (missingLine.map sortKey).Nodup := by decide +kernel
  ⟨perm, distinct, (arrange_canonical missingLine).2.2 _ perm distinct⟩

end Violation

end ArchReview

import ArchReview.Proofs.Decimal.Quotient
import ArchReview.Rule.Solid

/-!
# Cohesion of classes

The cohesion of a class is told by the sets of fields that its methods mention, those methods apart
that have no instance or no body (`judged`).  Neither the order of these sets nor anything else in
the class counts (`lcom_congr`): a pair of methods that shares a field does so in either order, so
pairs can be counted in any order of the methods (`countP_pairs_perm`).

Where there is something to compare, the share of pairs without a common field is one minus a
quotient of counts.  It is least, zero, exactly if every pair shares a field
(`exactLcom_eq_zero_iff`), and rounding does not blur this as long as the counts are floating-point
numbers themselves (`lcom_eq_zero_iff`).
-/

namespace ArchReview.Solid

/-! ### Pairs of a list -/

section Pairs
variable {α β : Type}

theorem length_pairs (l : List α) : (pairs l).length = l.length * (l.length - 1) / 2 := by
  rw [← Nat.choose_two_right]
  induction l with
  | nil => rfl
  | cons a l ih =>
      rw [pairs, List.length_append, List.length_map, ih, List.length_cons, Nat.choose_succ_succ,
        Nat.choose_one_right]

theorem pairs_map (f : α → β) (l : List α) : pairs (l.map f) = (pairs l).map (Prod.map f f) := by
  induction l with
  | nil => rfl
  | cons a l ih =>
      rw [List.map_cons, pairs, pairs, List.map_append, ih, List.map_map, List.map_map]
      rfl

theorem forall_mem_pairs {R : α → α → Prop} {l : List α} :
    (∀ e ∈ pairs l, R e.1 e.2) ↔ l.Pairwise R := by
  induction l with
  | nil => simp [pairs]
  | cons a l ih => simp [pairs, or_imp, forall_and, ← ih]

/-- **Whether pairs are counted in one order of a list or another does not matter**, if either order
of a pair does. -/
theorem countP_pairs_perm {R : α → α → Bool} (symm : ∀ a b, R a b = R b a) {l l' : List α}
    (h : l.Perm l') :
    (pairs l).countP (fun e => R e.1 e.2) = (pairs l').countP fun e => R e.1 e.2 := by
  have cons (a : α) (l : List α) : (pairs (a :: l)).countP (fun e => R e.1 e.2) =
      l.countP (R a) + (pairs l).countP fun e => R e.1 e.2 := by
    rw [pairs, List.countP_append, List.countP_map]
    rfl
  induction h with
  | nil => rfl
  | cons a h ih => rw [cons, cons, h.countP_eq, ih]
  | swap a b l =>
      -- the two heads make one pair, and each makes the same pairs with the rest
      simp only [cons, List.countP_cons, symm b a]
      omega
  | trans _ _ ih ih' => exact ih.trans ih'

end Pairs

/-! ### Methods that count -/

/-- The methods with an instance and a body. -/
def judged (c : ClassDef) : List FunctionDef :=
  c.methods.filter fun m => !m.isStatic && !m.isAbstract

/-- The fields that a method mentions. -/
def fieldsOf (m : FunctionDef) : Finset String := m.instanceFields.toFinset

/-- There is nothing to compare: fewer than two methods, or none that mentions a field. -/
def Idle (c : ClassDef) : Prop := (judged c).length < 2 ∨ ∀ m ∈ judged c, fieldsOf m = ∅

instance (c : ClassDef) : Decidable (Idle c) := inferInstanceAs (Decidable (_ ∨ _))

/-- Two methods share a field. -/
def SharesField (m m' : FunctionDef) : Prop := ∃ field, field ∈ fieldsOf m ∧ field ∈ fieldsOf m'

/-- The number of pairs of methods that share a field. -/
def sharing (c : ClassDef) : Nat := sharingPairs (fieldSets c)

/-- The number of pairs of methods. -/
def pairCount (c : ClassDef) : Nat := (judged c).length * ((judged c).length - 1) / 2

theorem shares_iff {a b : List String} :
    shares a b = true ↔ ∃ field, field ∈ a.toFinset ∧ field ∈ b.toFinset := by
  simp [shares]

/-- Whether two sets of fields have one in common. -/
def meet (a b : Finset String) : Bool := decide (∃ field ∈ a, field ∈ b)

theorem meet_comm (a b : Finset String) : meet a b = meet b a := by
  simp only [meet, and_comm]

theorem meet_fieldsOf {m m' : FunctionDef} :
    meet (fieldsOf m) (fieldsOf m') = true ↔ SharesField m m' := decide_eq_true_iff

/-- Pairs that share a field are counted by their sets of fields alone. -/
theorem sharing_eq (c : ClassDef) :
    sharing c = (pairs ((judged c).map fieldsOf)).countP fun e => meet e.1 e.2 := by
  have hsets : fieldSets c = (judged c).map FunctionDef.instanceFields := rfl
  rw [sharing, sharingPairs, ← List.countP_eq_length_filter, hsets, pairs_map, pairs_map,
    List.countP_map, List.countP_map]
  refine List.countP_congr fun e _ => ?_
  exact shares_iff.trans meet_fieldsOf.symm

/-- **What is computed**: nothing where there is nothing to compare, and otherwise what is missing
to one from the share of pairs with a common field. -/
theorem lcom_eq (c : ClassDef) :
    lcom c = if Idle c then 0.0 else 1.0 - (sharing c).toFloat / (pairCount c).toFloat := by
  have hsets : fieldSets c = (judged c).map FunctionDef.instanceFields := rfl
  have hidle : (decide ((fieldSets c).length < 2) || (fieldSets c).all List.isEmpty) = true ↔
      Idle c := by
    simp [hsets, Idle, fieldsOf]
  have hpairs : (pairs (fieldSets c)).length = pairCount c := by
    rw [length_pairs, hsets, List.length_map, pairCount]
  rw [lcom, hpairs]
  exact if_congr hidle rfl rfl

/-- **Cohesion depends on the sets of fields only.** -/
theorem lcom_congr {c d : ClassDef}
    (h : ((judged d).map fieldsOf).Perm ((judged c).map fieldsOf)) : lcom d = lcom c := by
  have hlength : (judged d).length = (judged c).length := by simpa using h.length_eq
  have hempty : (∀ m ∈ judged d, fieldsOf m = ∅) ↔ ∀ m ∈ judged c, fieldsOf m = ∅ := by
    have hsets : (∀ s ∈ (judged d).map fieldsOf, s = ∅) ↔ ∀ s ∈ (judged c).map fieldsOf, s = ∅ :=
      forall_congr' fun s => imp_congr_left h.mem_iff
    simpa only [List.forall_mem_map] using hsets
  have hidle : Idle d ↔ Idle c := by rw [Idle, Idle, hlength, hempty]
  rw [lcom_eq, lcom_eq, sharing_eq, sharing_eq, countP_pairs_perm meet_comm h, pairCount, pairCount,
    hlength]
  exact if_congr hidle rfl rfl

/-! ### Counts of pairs -/

theorem sharing_le (c : ClassDef) : sharing c ≤ pairCount c := by
  rw [sharing_eq, pairCount, ← List.length_map fieldsOf, ← length_pairs]
  exact List.countP_le_length

/-- All pairs share a field exactly if their number is that of all pairs. -/
theorem sharing_eq_pairCount_iff {c : ClassDef} :
    sharing c = pairCount c ↔ (judged c).Pairwise SharesField := by
  rw [sharing_eq, pairCount, ← List.length_map fieldsOf, ← length_pairs, List.countP_eq_length,
    forall_mem_pairs (R := fun a b => meet a b = true), List.pairwise_map]
  simp only [meet_fieldsOf]

theorem pairCount_pos {c : ClassDef} (h : ¬ Idle c) : 2 ≤ (judged c).length ∧ 0 < pairCount c := by
  have hlength : 2 ≤ (judged c).length := Nat.le_of_not_lt fun hlt => h (Or.inl hlt)
  refine ⟨hlength, Nat.div_pos ?_ two_pos⟩
  exact Nat.mul_le_mul hlength (Nat.le_sub_one_of_lt hlength)

/-! ### The least value -/

/-- Every pair of methods shares a field, or there is nothing to compare. -/
def Cohesive (c : ClassDef) : Prop := (judged c).Pairwise SharesField ∨ Idle c

theorem cohesive_iff {c : ClassDef} (h : ¬ Idle c) : Cohesive c ↔ sharing c = pairCount c := by
  rw [Cohesive, sharing_eq_pairCount_iff, or_iff_left h]

/-- The share of pairs without a common field, as an exact number. -/
def exactLcom (c : ClassDef) : ℚ := if Idle c then 0 else 1 - (sharing c : ℚ) / (pairCount c : ℚ)

theorem exactLcom_nonneg (c : ClassDef) : 0 ≤ exactLcom c := by
  rw [exactLcom]
  split
  · exact le_rfl
  · rename_i h
    have hpos : (0 : ℚ) < pairCount c := Nat.cast_pos.mpr (pairCount_pos h).2
    rw [sub_nonneg, div_le_one hpos]
    exact Nat.cast_le.mpr (sharing_le c)

theorem exactLcom_eq_zero_iff {c : ClassDef} : exactLcom c = 0 ↔ Cohesive c := by
  by_cases h : Idle c
  · rw [exactLcom, if_pos h]
    exact iff_of_true rfl (Or.inr h)
  · have hne : (pairCount c : ℚ) ≠ 0 := Nat.cast_ne_zero.mpr (pairCount_pos h).2.ne'
    rw [exactLcom, if_neg h, cohesive_iff h, sub_eq_zero, eq_comm, div_eq_one_iff_eq hne,
      Nat.cast_inj]

/-- The least value is zero: a class without methods has it. -/
theorem exactLcom_least_iff {c : ClassDef} : (∀ d, exactLcom c ≤ exactLcom d) ↔ Cohesive c := by
  rw [← exactLcom_eq_zero_iff]
  refine ⟨fun h => ?_, fun h d => h.trans_le (exactLcom_nonneg d)⟩
  have hempty : exactLcom { c with methods := [] } = 0 := if_pos (Or.inl two_pos)
  exact ((h _).trans_eq hempty).antisymm (exactLcom_nonneg c)

/-- **Rounding does not blur cohesion**, as long as the number of pairs is a floating-point
number. -/
theorem lcom_eq_zero_iff {c : ClassDef} (hcount : pairCount c < 2 ^ 53) :
    (0.0 : Float) ≤ lcom c ∧ (lcom c = 0.0 ↔ Cohesive c) := by
  by_cases h : Idle c
  · rw [lcom_eq, if_pos h]
    exact ⟨by decide +kernel, iff_of_true rfl (Or.inr h)⟩
  · rw [lcom_eq, if_neg h, cohesive_iff h]
    rcases (sharing_le c).lt_or_eq with hlt | heq
    · have hpos := Decimal.one_sub_div_pos hlt hcount
      refine ⟨Decimal.float_le_of_lt hpos, iff_of_false (fun hzero => ?_) hlt.ne⟩
      rw [hzero] at hpos
      exact absurd hpos (by decide +kernel)
    · rw [heq, Decimal.one_sub_div_self (pairCount_pos h).2 hcount]
      exact ⟨by decide +kernel, iff_of_true rfl rfl⟩

/-! ### Changes that do not count -/

theorem judged_perm {c d : ClassDef} (h : d.methods.Perm c.methods) :
    (judged d).Perm (judged c) := h.filter _

/-- A method without an instance or a body is not judged. -/
theorem judged_append {added : List FunctionDef}
    (h : ∀ m ∈ added, m.isStatic = true ∨ m.isAbstract = true) {c d : ClassDef}
    {before after : List FunctionDef} (hc : c.methods = before ++ after)
    (hd : d.methods = before ++ added ++ after) : judged d = judged c := by
  have hnone : added.filter (fun m => !m.isStatic && !m.isAbstract) = [] := by
    refine List.filter_eq_nil_iff.mpr fun m hm => ?_
    rcases h m hm with h | h <;> simp [h]
  rw [judged, judged, hc, hd, List.filter_append, List.filter_append, List.filter_append, hnone,
    List.append_nil]

/-- **Cohesion.**  Neither the order of methods counts nor methods without an instance or a body,
but only the sets of fields of the others.  Where there are `n` of them to compare, the number of
sharing pairs is divided by that of all pairs, which is not zero.  The value is least exactly for
cohesive classes, also as computed, as long as the number of pairs is below `2 ^ 53`. -/
theorem lcom_determined (c : ClassDef) :
    (∀ d : ClassDef, d.methods.Perm c.methods → lcom d = lcom c) ∧
      (∀ (d : ClassDef) (before added after : List FunctionDef),
        (∀ m ∈ added, m.isStatic = true ∨ m.isAbstract = true) →
        c.methods = before ++ after → d.methods = before ++ added ++ after → lcom d = lcom c) ∧
      (∀ d : ClassDef, ((judged d).map fieldsOf).Perm ((judged c).map fieldsOf) →
        lcom d = lcom c) ∧
      (Idle c → lcom c = 0.0) ∧
      (∀ n, (judged c).length = n → ¬ Idle c → 2 ≤ n ∧ 0 < n * (n - 1) / 2 ∧
        sharing c ≤ n * (n - 1) / 2 ∧
        lcom c = 1.0 - (sharing c).toFloat / (n * (n - 1) / 2).toFloat) ∧
      ((∀ d, exactLcom c ≤ exactLcom d) ↔ Cohesive c) ∧
      (pairCount c < 2 ^ 53 → (0.0 : Float) ≤ lcom c ∧ (lcom c = 0.0 ↔ Cohesive c)) := by
  refine ⟨fun d h => lcom_congr ((judged_perm h).map _), fun d before added after h hc hd => ?_,
    fun d => lcom_congr, fun hidle => by rw [lcom_eq, if_pos hidle], ?_, exactLcom_least_iff,
    lcom_eq_zero_iff⟩
  · exact lcom_congr (by rw [judged_append h hc hd])
  · rintro n rfl hidle
    obtain ⟨hlength, hpos⟩ := pairCount_pos hidle
    exact ⟨hlength, hpos, sharing_le c, by rw [lcom_eq, if_neg hidle, pairCount]⟩

/-- Three methods, two of which have no field in common. -/
def account : ClassDef where
  name := "Account"
  startLine := 1
  endLine := 20
  methods :=
    [{ name := "deposit", startLine := 2, endLine := 4, instanceFields := ["balance"] },
     { name := "audit", startLine := 5, endLine := 7, instanceFields := ["log"] },
     { name := "withdraw", startLine := 8, endLine := 11, instanceFields := ["balance", "log"] }]

/-- A method without an instance. -/
def openAccount : FunctionDef where
  name := "open"
  startLine := 12
  endLine := 13
  isStatic := true

theorem lcom_determined_account :
    ¬ Idle account ∧ pairCount account < 2 ^ 53 ∧
      lcom { account with methods := account.methods.reverse } = lcom account ∧
      lcom { account with methods := openAccount :: account.methods } = lcom account ∧
      lcom account = 1.0 - Nat.toFloat 2 / Nat.toFloat 3 ∧ ¬ Cohesive account := by
  have hidle : ¬ Idle account := by decide +kernel
  have hcount : pairCount account < 2 ^ 53 := by decide +kernel
  have hsharing : sharing account = 2 := by decide +kernel
  have hvalue : lcom account ≠ 0.0 := by decide +kernel
  obtain ⟨hperm, hadded, -, -, hdivides, -, hleast⟩ := lcom_determined account
  refine ⟨hidle, hcount, hperm _ account.methods.reverse_perm,
    hadded _ [] [openAccount] account.methods (by decide) rfl rfl, ?_,
    fun h => hvalue ((hleast hcount).2.mpr h)⟩
  obtain ⟨-, -, -, h⟩ := hdivides 3 (by decide +kernel) hidle
  rwa [hsharing] at h

end ArchReview.Solid

import ArchReview.Proofs.Path.Order

/-!
# Normal paths

The text of a list of steps is read back as these steps (`components_ofComponents`), if the steps
are plain: names that could have been written between separators, and `..`.  Reading a path gives
plain steps only, and normalising keeps some of them; so a normal path is told by its components
(`normalize_eq_of_same`), and two spellings of one path have one normal form
(`normalize_congr`).
-/

namespace ArchReview

/-! ### Pieces between separators -/

namespace Text

theorem splitWhere_cons (p : Char → Bool) (c : Char) (s : List Char) :
    splitWhere p (c :: s) =
      if p c then [] :: splitWhere p s
      else match splitWhere p s with
        | []          => [[c]]
        | piece :: ps => (c :: piece) :: ps := rfl

theorem splitWhere_eq_splitOnP (p : Char → Bool) : ∀ s : List Char, splitWhere p s = s.splitOnP p
  | [] => rfl
  | c :: s => by
      have hne := List.splitOnP_ne_nil p s
      rw [splitWhere_cons, List.splitOnP_cons_eq_if_modifyHead, splitWhere_eq_splitOnP p s]
      split
      · rfl
      · cases h : s.splitOnP p with
        | nil => exact absurd h hne
        | cons piece ps => rfl

/-- No piece holds a separator. -/
theorem not_of_mem_splitWhere {p : Char → Bool} :
    ∀ {s piece : List Char}, piece ∈ splitWhere p s → ∀ c ∈ piece, ¬ p c = true
  | [], piece, h, c, hc => by
      rw [List.mem_singleton.mp h] at hc
      cases hc
  | a :: s, piece, h, c, hc => by
      have ih : ∀ q ∈ splitWhere p s, ∀ c ∈ q, ¬ p c = true := fun q hq => not_of_mem_splitWhere hq
      rw [splitWhere_cons] at h
      split at h
      · rcases List.mem_cons.mp h with rfl | h
        · cases hc
        · exact ih piece h c hc
      · rename_i ha
        cases e : splitWhere p s with
        | nil =>
            rw [e] at h
            rw [List.mem_singleton.mp h, List.mem_singleton] at hc
            rwa [hc]
        | cons q qs =>
            rw [e] at h ih
            rcases List.mem_cons.mp h with rfl | h
            · rcases List.mem_cons.mp hc with rfl | hc
              · exact ha
              · exact ih q List.mem_cons_self c hc
            · exact ih piece (List.mem_cons_of_mem _ h) c hc

end Text

/-! ### Plain steps -/

/-- A step that reads as itself: `..`, or a name that could stand between separators. -/
def Component.Plain : Component → Prop
  | .root | .current => False
  | .parent          => True
  | .name s          =>
    s.toList ≠ [] ∧ s.toList ≠ ['.'] ∧ s.toList ≠ ['.', '.'] ∧ '/' ∉ s.toList

namespace Path

theorem plain_of_mem_stepsOf {pieces : List (List Char)} (h : ∀ piece ∈ pieces, '/' ∉ piece)
    {c : Component} (hc : c ∈ stepsOf pieces) : c.Plain := by
  obtain ⟨piece, hp, hc⟩ := List.mem_filterMap.mp hc
  split at hc
  · cases hc
  · cases hc
  · obtain rfl := Option.some.inj hc
    trivial
  · rename_i h₁ h₂ h₃
    obtain rfl := Option.some.inj hc
    simp only [Component.Plain, String.toList_ofList]
    exact ⟨h₁, h₂, h₃, h piece hp⟩

theorem slash_not_mem {s piece : List Char} (h : piece ∈ Text.splitWhere (· == '/') s) :
    '/' ∉ piece := fun hc => Text.not_of_mem_splitWhere h '/' hc rfl

/-- What a path is read as: plain steps, after a root or a `.` or nothing. -/
theorem components_cases (p : Path) :
    ∃ steps : List Component, (∀ c ∈ steps, c.Plain) ∧
      (p.isAbsolute = true ∧ p.components = .root :: steps ∨
        p.isAbsolute = false ∧ (p.components = .current :: steps ∨ p.components = steps)) := by
  unfold components isAbsolute
  split
  · rename_i rest e
    rw [e]
    exact ⟨_, fun c hc => plain_of_mem_stepsOf (fun _ => slash_not_mem) hc, Or.inl ⟨rfl, rfl⟩⟩
  · rename_i hroot
    have habs : (p.text.toList.head? == some '/') = false := by
      cases e : p.text.toList with
      | nil => rfl
      | cons c cs =>
          have hc : c ≠ '/' := by
            rintro rfl
            exact hroot cs e
          simpa using hc
    split
    · rename_i rest e
      refine ⟨_, fun c hc => plain_of_mem_stepsOf (fun piece hp => ?_) hc,
        Or.inr ⟨habs, Or.inl rfl⟩⟩
      exact slash_not_mem (e ▸ List.mem_cons_of_mem _ hp)
    · exact ⟨_, fun c hc => plain_of_mem_stepsOf (fun _ => slash_not_mem) hc,
        Or.inr ⟨habs, Or.inr rfl⟩⟩

/-! ### Reading back -/

/-- The characters of a step. -/
def piece (c : Component) : List Char := c.text.toList

theorem slash_not_mem_piece {c : Component} (h : c.Plain) : '/' ∉ piece c := by
  cases c with
  | root | current => exact h.elim
  | parent => decide +kernel
  | name s => exact h.2.2.2

theorem stepsOf_piece {c : Component} (h : c.Plain) (rest : List (List Char)) :
    stepsOf (piece c :: rest) = c :: stepsOf rest := by
  cases c with
  | root | current => exact h.elim
  | parent => rfl
  | name s =>
      obtain ⟨h₁, h₂, h₃, -⟩ := h
      change List.filterMap _ (s.toList :: rest) = _
      rw [List.filterMap_cons]
      split
      · rename_i e
        split at e <;> simp_all
      · rename_i e
        split at e <;> simp_all [stepsOf]

theorem stepsOf_map_piece : ∀ {steps : List Component}, (∀ c ∈ steps, c.Plain) →
    stepsOf (steps.map piece) = steps
  | [], _ => rfl
  | c :: steps, h => by
      rw [List.map_cons, stepsOf_piece (h c List.mem_cons_self),
        stepsOf_map_piece fun d hd => h d (List.mem_cons_of_mem _ hd)]

/-- The text of some steps is cut into their pieces again. -/
theorem splitWhere_intercalate {steps : List Component} (h : ∀ c ∈ steps, '/' ∉ piece c)
    (hne : steps ≠ []) :
    Text.splitWhere (· == '/') ("/".intercalate (steps.map Component.text)).toList =
      steps.map piece := by
  have hs : ∀ l ∈ steps.map piece, '/' ∉ l := by simpa using h
  rw [Text.splitWhere_eq_splitOnP, String.toList_intercalate, List.map_map]
  exact List.splitOn_intercalate '/' hs (by simpa using hne)

theorem stepsOf_splitWhere_intercalate {steps : List Component} (h : ∀ c ∈ steps, c.Plain) :
    stepsOf (Text.splitWhere (· == '/') ("/".intercalate (steps.map Component.text)).toList) =
      steps := by
  by_cases hne : steps = []
  · rw [hne]
    decide +kernel
  · rw [splitWhere_intercalate (fun c hc => slash_not_mem_piece (h c hc)) hne, stepsOf_map_piece h]

theorem components_ofComponents_root {steps : List Component} (h : ∀ c ∈ steps, c.Plain) :
    (ofComponents (.root :: steps)).components = .root :: steps := by
  have e : (ofComponents (.root :: steps)).text.toList =
      '/' :: ("/".intercalate (steps.map Component.text)).toList := by
    rw [ofComponents, String.toList_append]
    rfl
  rw [components, e]
  simp only [stepsOf_splitWhere_intercalate h]

theorem ofComponents_eq {steps : List Component} (h : ∀ c ∈ steps, c.Plain) :
    ofComponents steps = ⟨"/".intercalate (steps.map Component.text)⟩ := by
  unfold ofComponents
  split
  · exact (h .root List.mem_cons_self).elim
  · rfl

theorem piece_ne {c : Component} (h : c.Plain) : piece c ≠ [] ∧ piece c ≠ ['.'] := by
  cases c with
  | root | current => exact h.elim
  | parent => decide +kernel
  | name s => exact ⟨h.1, h.2.1⟩

/-- **The text of plain steps is read back as these steps.** -/
theorem components_ofComponents {steps : List Component} (h : ∀ c ∈ steps, c.Plain) :
    (ofComponents steps).components = steps := by
  cases steps with
  | nil => decide +kernel
  | cons c steps =>
      have hc := piece_ne (h c List.mem_cons_self)
      have hs := splitWhere_intercalate (fun c hc => slash_not_mem_piece (h c hc))
        (List.cons_ne_nil _ _)
      have hread := stepsOf_splitWhere_intercalate h
      rw [ofComponents_eq h, components]
      split
      · -- a text that starts with a separator has an empty first piece
        rename_i rest e
        rw [e, Text.splitWhere_cons] at hs
        exact absurd (List.cons.inj hs).1.symm hc.1
      · split
        · rename_i rest e
          rw [e] at hs
          exact absurd (List.cons.inj hs).1.symm hc.2
        · exact hread

/-! ### Normal forms -/

theorem plain_of_mem_normalStep {absolute : Bool} {kept : List Component} {step : Component}
    (hk : ∀ c ∈ kept, c.Plain) (hs : step = .root ∨ step = .current ∨ step.Plain) :
    ∀ c ∈ normalStep absolute kept step, c.Plain := by
  unfold normalStep
  split
  · exact hk
  · exact hk
  · rename_i s
    have hplain : (Component.name s).Plain := by simpa using hs
    exact List.forall_mem_cons.mpr ⟨hplain, hk⟩
  · split
    · exact fun c hc => hk c (List.mem_cons_of_mem _ hc)
    · split
      · exact hk
      · exact List.forall_mem_cons.mpr ⟨trivial, hk⟩

theorem plain_of_mem_foldl_normalStep {absolute : Bool} :
    ∀ {steps kept : List Component}, (∀ c ∈ kept, c.Plain) →
      (∀ c ∈ steps, c = .root ∨ c = .current ∨ c.Plain) →
      ∀ c ∈ steps.foldl (normalStep absolute) kept, c.Plain
  | [], _, hk, _ => hk
  | step :: steps, kept, hk, hs => by
      rw [List.foldl_cons]
      exact plain_of_mem_foldl_normalStep
        (plain_of_mem_normalStep hk (hs step List.mem_cons_self))
        fun c hc => hs c (List.mem_cons_of_mem _ hc)

theorem plain_of_mem_normalSteps {p : Path} : ∀ c ∈ p.normalSteps, c.Plain := by
  refine plain_of_mem_foldl_normalStep (fun c hc => absurd hc List.not_mem_nil) fun c hc => ?_
  obtain ⟨steps, hplain, h⟩ := p.components_cases
  rcases h with ⟨-, e⟩ | ⟨-, e | e⟩ <;> rw [e] at hc
  · exact (List.mem_cons.mp hc).imp_right fun hc => Or.inr (hplain c hc)
  · exact Or.inr ((List.mem_cons.mp hc).imp_right (hplain c))
  · exact Or.inr (Or.inr (hplain c hc))

/-- The components of a normal path. -/
theorem components_normalize (p : Path) :
    p.normalize.components =
      if p.isAbsolute then .root :: p.normalSteps.reverse else p.normalSteps.reverse := by
  have hplain : ∀ c ∈ p.normalSteps.reverse, c.Plain := fun c hc =>
    plain_of_mem_normalSteps c (List.mem_reverse.mp hc)
  unfold normalize
  split
  · exact components_ofComponents_root hplain
  · exact components_ofComponents hplain

/-- **A normal path is told by its components.** -/
theorem normalize_eq_of_same {p q : Path} (h : p.normalize.same q.normalize = true) :
    p.normalize = q.normalize := by
  have e := same_iff.mp h
  rw [components_normalize, components_normalize] at e
  exact congrArg ofComponents e

theorem isAbsolute_eq (p : Path) : p.isAbsolute = (p.components.head? == some .root) := by
  obtain ⟨steps, hplain, ⟨ha, e⟩ | ⟨ha, e | e⟩⟩ := p.components_cases
  · rw [ha, e]
    rfl
  · rw [ha, e]
    rfl
  · rw [ha, e]
    cases steps with
    | nil => rfl
    | cons c steps =>
        cases c with
        | root => exact (hplain .root List.mem_cons_self).elim
        | current | parent | name s => rfl

/-- **The spellings of one path have one normal form.** -/
theorem normalize_congr {p q : Path} (h : p.same q = true) : p.normalize = q.normalize := by
  have e := same_iff.mp h
  unfold normalize normalSteps
  rw [isAbsolute_eq p, isAbsolute_eq q, e]

end Path

end ArchReview

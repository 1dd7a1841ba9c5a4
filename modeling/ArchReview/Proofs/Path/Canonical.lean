import ArchReview.Proofs.Path.Join

/-!
# Canonical paths

A path is canonical if its text spells its components and nothing else, has no `.` and has every
`..` in front of all other steps.  A root stands before whatever follows it, so no `..` follows a
root.

These are the paths that `normalize` gives and leaves alone (`canonical_normalize`,
`Canonical.normalize_eq`).  The steps that it keeps on its way are told by the same condition
(`kept_iff`): a `..` is kept only where nothing but `..` was kept before it.
-/

namespace ArchReview.Path

/-- Whatever stands before a `..` is a `..`. -/
def ClimbsFirst (steps : List Component) : Prop :=
  steps.Pairwise fun before step => step = .parent → before = .parent

instance (steps : List Component) : Decidable (ClimbsFirst steps) :=
  inferInstanceAs (Decidable (List.Pairwise _ _))

/-- Nothing is left in the spelling of a path that a shorter one could do without. -/
structure Canonical (p : Path) : Prop where
  spelled : ofComponents p.components = p
  noCurrent : .current ∉ p.components
  climbsFirst : ClimbsFirst p.components

/-! ### Steps that are kept -/

theorem kept_name_iff {absolute : Bool} {s : String} {kept : List Component} :
    Kept absolute (.name s :: kept) ↔ Kept absolute kept :=
  ⟨And.right, fun h => ⟨rfl, h⟩⟩

/-- A `..` is kept behind other `..` only, and never below the root. -/
theorem kept_parent_iff {absolute : Bool} : ∀ {kept : List Component},
    Kept absolute (.parent :: kept) ↔
      Kept absolute kept ∧ absolute = false ∧ ∀ c ∈ kept, c = .parent
  | [] => by cases absolute <;> simp [Kept, normalStep]
  | .root :: kept | .current :: kept => by simp [Kept, normalStep]
  | .name s :: kept => by
      have hlost : kept ≠ .parent :: .name s :: kept := fun e => by
        have hlength := congrArg List.length e
        simp only [List.length_cons] at hlength
        omega
      simp [Kept, normalStep, hlost]
  | .parent :: kept => by
      -- behind a `..` that is kept the next one is kept too, and what stands before is known
      have ih := @kept_parent_iff absolute kept
      cases absolute <;> simp_all [Kept, normalStep]

/-- **Plain steps, last step first, are kept if every `..` comes before all names, and none comes
after a root.** -/
theorem kept_iff {absolute : Bool} {kept : List Component} (plain : ∀ c ∈ kept, c.Plain) :
    Kept absolute kept ↔ ClimbsFirst kept.reverse ∧ (absolute = true → .parent ∉ kept) := by
  rw [ClimbsFirst, List.pairwise_reverse]
  induction kept with
  | nil => simp [Kept]
  | cons c kept ih =>
      obtain ⟨hc, hkept⟩ := List.forall_mem_cons.mp plain
      cases c with
      | root | current => exact hc.elim
      | name s => simp [kept_name_iff, ih hkept]
      | parent =>
          rw [kept_parent_iff, ih hkept]
          cases absolute <;> simp [and_comm]

/-! ### Canonical paths are the normal forms -/

theorem parent_not_mem_normalSteps {p : Path} (h : p.isAbsolute = true) :
    .parent ∉ p.normalSteps :=
  ((kept_iff plain_of_mem_normalSteps).mp p.kept_normalSteps).2 h

/-- **Normal forms are canonical.** -/
theorem canonical_normalize (p : Path) : p.normalize.Canonical := by
  have plain : ∀ c ∈ p.normalSteps.reverse, c.Plain := fun c hc =>
    plain_of_mem_normalSteps c (List.mem_reverse.mp hc)
  have current : .current ∉ p.normalSteps.reverse := fun h => plain _ h
  have climbs := ((kept_iff plain_of_mem_normalSteps).mp p.kept_normalSteps).1
  refine ⟨by rw [components_normalize]; rfl, ?_, ?_⟩ <;> rw [components_normalize] <;> split
  · exact List.not_mem_cons_of_ne_of_not_mem (by decide) current
  · exact current
  · rename_i habs
    refine List.pairwise_cons.mpr ⟨?_, climbs⟩
    rintro c hc rfl
    exact absurd (List.mem_reverse.mp hc) (parent_not_mem_normalSteps habs)
  · exact climbs

/-- What is read of a canonical path is kept. -/
theorem Canonical.components_eq {p : Path} (h : p.Canonical) :
    p.components =
      if p.isAbsolute then .root :: p.normalSteps.reverse else p.normalSteps.reverse := by
  obtain ⟨steps, plain, hread⟩ := p.components_cases
  have kept {absolute : Bool} (hc : ClimbsFirst steps) (ha : absolute = true → .parent ∉ steps) :
      steps.foldl (normalStep absolute) [] = steps.reverse := by
    have hk : Kept absolute steps.reverse :=
      (kept_iff fun c hc => plain c (List.mem_reverse.mp hc)).mpr (by simpa using ⟨hc, ha⟩)
    simpa using hk.foldl_reverse
  have climbs := h.climbsFirst
  rcases hread with ⟨habs, e⟩ | ⟨habs, e | e⟩
  · rw [e] at climbs
    obtain ⟨hroot, hsteps⟩ := List.pairwise_cons.mp climbs
    have hparent : .parent ∉ steps := fun hm => Component.noConfusion (hroot _ hm rfl)
    rw [normalSteps, habs, e, List.foldl_cons]
    simp only [normalStep, kept hsteps fun _ => hparent, List.reverse_reverse, if_true]
  · exact absurd (e ▸ List.mem_cons_self) h.noCurrent
  · rw [normalSteps, habs, e, kept (e ▸ climbs) (by simp)]
    simp

/-- **A canonical path is its own normal form.** -/
theorem Canonical.normalize_eq {p : Path} (h : p.Canonical) : p.normalize = p := by
  conv_rhs => rw [← h.spelled, h.components_eq]
  rfl

/-- **Normalising is canonicalising by spelling alone.**  A normal form is canonical: it has no `.`,
and `..` only in front, none if it starts at the root.  Canonical paths are left alone, so
normalising again changes nothing, and it does not matter whether a path is normalised before
another is joined to it. -/
theorem normalize_canonicalises (p : Path) :
    p.normalize.Canonical ∧ (p.isAbsolute = true → .parent ∉ p.normalize.components) ∧
      (p.Canonical → p.normalize = p) ∧ p.normalize.normalize = p.normalize ∧
      ∀ q : Path, q.isAbsolute = false →
        (p.join q).normalize = (p.normalize.join q).normalize := by
  refine ⟨p.canonical_normalize, fun habs => ?_, Canonical.normalize_eq, p.normalize_normalize,
    fun q _ => normalize_join_congr p.normalize_normalize.symm q⟩
  rw [components_normalize, if_pos habs]
  simpa using parent_not_mem_normalSteps habs

/-- A path that climbs above the root, and one that is canonical as it is. -/
theorem normalize_canonicalises_climbing :
    let p : Path := ⟨"/a/../../b/.//c"⟩
    let q : Path := ⟨"../../../d"⟩
    p.isAbsolute = true ∧ .parent ∉ p.normalize.components ∧ q.isAbsolute = false ∧
      (p.normalize.join q).normalize = ⟨"/d"⟩ ∧ (p.join q).normalize = ⟨"/d"⟩ ∧
      q.Canonical ∧ q.normalize = q := by
  intro p q
  have habs : p.isAbsolute = true := by decide +kernel
  have hrel : q.isAbsolute = false := by decide +kernel
  have hjoined : (p.normalize.join q).normalize = ⟨"/d"⟩ := by decide +kernel
  have hcanonical : q.Canonical := ⟨by decide +kernel, by decide +kernel, by decide +kernel⟩
  obtain ⟨-, hparent, -, -, hjoin⟩ := normalize_canonicalises p
  exact ⟨habs, hparent habs, hrel, hjoined, (hjoin q hrel).trans hjoined, hcanonical,
    (normalize_canonicalises q).2.2.1 hcanonical⟩

end ArchReview.Path

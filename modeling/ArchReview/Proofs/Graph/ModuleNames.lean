import ArchReview.Proofs.Graph.Alike

/-!
# Modules by their dotted names

A Python file answers to every ending of the steps to its module, written with dots
(`Path.AnswersTo`): `lib/app/core.py` is `lib.app.core` and `app.core`.  A single step counts only
near the top, so it is not `core`.

A resolver lists all files under all of their names, files with few steps first.  The first entry of
a name is therefore the first file in this order that answers to it (`pythonModule?_eq_find?`).

**Lookup** (`pythonModule?_least`).  Among normal paths, a dotted name leads to the least of the
files that answer to it, by number of steps and then by path, and to none exactly if no file answers
to it.
-/

namespace ArchReview
open Std

/-! ### The names of a file -/

/-- A dotted name spells the last steps to the module of a file; a single step only if there is at
most one step above it. -/
def Path.AnswersTo (file : Path) (dotted : String) : Prop :=
  ∃ above steps, moduleParts file = above ++ steps ∧ steps ≠ [] ∧
    (steps.length = 1 → above.length ≤ 1) ∧ ".".intercalate steps = dotted

theorem mem_dottedSuffixes {parts : List String} {depth : Nat} {name : String} :
    name ∈ dottedSuffixes depth parts ↔
      ∃ above steps, parts = above ++ steps ∧ steps ≠ [] ∧
        (steps.length = 1 → depth + above.length ≤ 1) ∧ ".".intercalate steps = name := by
  induction parts generalizing depth with
  | nil => simp [dottedSuffixes]
  | cons part parts ih =>
      rw [dottedSuffixes]
      split
      · -- the last step, too deep to stand alone
        rename_i deep
        simp only [Bool.and_eq_true, List.isEmpty_iff, decide_eq_true_eq] at deep
        obtain ⟨rfl, deep⟩ := deep
        simp only [List.not_mem_nil, false_iff]
        rintro ⟨above, steps, e, hne, near, -⟩
        have len := congrArg List.length e
        have pos := List.length_pos_iff.mpr hne
        simp only [List.length_append, List.length_singleton] at len
        have := near (by omega)
        omega
      · rename_i shallow
        rw [List.mem_cons, ih]
        constructor
        · rintro (rfl | ⟨above, steps, rfl, hne, near, rfl⟩)
          · refine ⟨[], part :: parts, rfl, List.cons_ne_nil _ _, fun one => ?_, rfl⟩
            have : parts = [] := by simpa using one
            simpa [this] using shallow
          · refine ⟨part :: above, steps, rfl, hne, fun one => ?_, rfl⟩
            have := near one
            simp only [List.length_cons]
            omega
        · rintro ⟨above, steps, e, hne, near, rfl⟩
          cases above with
          | nil => exact Or.inl (by rw [e, List.nil_append])
          | cons a above =>
              refine Or.inr ⟨above, steps, (List.cons.inj e).2, hne, fun one => ?_, rfl⟩
              have := near one
              simp only [List.length_cons] at this
              omega

theorem mem_dottedNames {file : Path} {dotted : String} :
    dotted ∈ dottedNames file ↔ file.AnswersTo dotted := by
  simp only [dottedNames, mem_dottedSuffixes, Path.AnswersTo, Nat.zero_add]

instance (file : Path) (dotted : String) : Decidable (file.AnswersTo dotted) :=
  decidable_of_iff _ mem_dottedNames

theorem isPythonFile_iff {p : Path} :
    isPythonFile p = true ↔ p.extension? = some "py" ∨ p.extension? = some "pyi" := by
  unfold isPythonFile
  cases p.extension? with
  | none => simp
  | some ext => simp [pythonExtensions]

/-! ### The order of files -/

/-- Fewer steps, or as many and before in the order of paths. -/
def Path.Shallower (p q : Path) : Prop :=
  p.components.length < q.components.length ∨
    p.components.length = q.components.length ∧ p.compare q = .lt

instance (p q : Path) : Decidable (p.Shallower q) :=
  inferInstanceAs (Decidable (_ ∨ _))

theorem Path.Shallower.asymm {p q : Path} (h : p.Shallower q) : ¬ q.Shallower p := by
  rcases h with h | ⟨h, lt⟩
  · rintro (h' | ⟨h', -⟩) <;> omega
  · rintro (h' | ⟨-, gt⟩)
    · omega
    · exact Path.ne_of_lt (TransCmp.lt_trans lt gt) rfl

theorem transCmp_shallow : TransCmp fun p q : Path =>
    (compare p.components.length q.components.length).then (p.compare q) :=
  transCmp_then (transCmp_comap fun p : Path => p.components.length) inferInstance

theorem pairwise_mergeSort_shallowLe (files : List Path) :
    (files.mergeSort shallowLe).Pairwise fun p q => shallowLe p q = true :=
  have := transCmp_shallow
  pairwise_mergeSort_cmp (fun p q : Path =>
    (compare p.components.length q.components.length).then (p.compare q)) files

theorem shallower_or_same {p q : Path} (h : shallowLe p q = true) :
    p.Shallower q ∨ p.same q = true := by
  rw [shallowLe] at h
  rcases Nat.lt_trichotomy p.components.length q.components.length with lt | eq | gt
  · exact Or.inl (Or.inl lt)
  · rw [Nat.compare_eq_eq.mpr eq] at h
    rcases Path.lt_or_same_of_le h with lt | same
    · exact Or.inl (Or.inr ⟨eq, lt⟩)
    · exact Or.inr same
  · rw [Nat.compare_eq_gt.mpr gt] at h
    cases h

/-! ### Looking a name up -/

/-- A file of a project that a dotted name may stand for. -/
structure IsModule (files : List Path) (dotted : String) (file : Path) : Prop where
  mem : file ∈ files
  python : file.extension? = some "py" ∨ file.extension? = some "pyi"
  answers : file.AnswersTo dotted

instance (files : List Path) (dotted : String) (file : Path) :
    Decidable (IsModule files dotted file) :=
  decidable_of_iff (file ∈ files ∧ (file.extension? = some "py" ∨ file.extension? = some "pyi") ∧
      file.AnswersTo dotted)
    ⟨fun ⟨mem, python, answers⟩ => ⟨mem, python, answers⟩, fun h => ⟨h.mem, h.python, h.answers⟩⟩

namespace Resolver

/-- The entries of one file hold a name if the file answers to it. -/
theorem find?_entriesOf (file : Path) (dotted : String) :
    (((dottedNames file).map fun name => (name, file)).find? fun e => e.1 == dotted).map
        (fun e => e.2) =
      if file.AnswersTo dotted then some file else none := by
  rw [List.find?_map, Option.map_map]
  split
  · rename_i h
    have found : ((dottedNames file).find?
        ((fun e => e.1 == dotted) ∘ fun name => (name, file))).isSome = true :=
      List.find?_isSome.mpr ⟨dotted, mem_dottedNames.mpr h, beq_self_eq_true dotted⟩
    obtain ⟨name, e⟩ := Option.isSome_iff_exists.mp found
    rw [e]
    rfl
  · rename_i h
    have missing : (dottedNames file).find?
        ((fun e => e.1 == dotted) ∘ fun name => (name, file)) = none := by
      refine List.find?_eq_none.mpr fun name hn e => h (mem_dottedNames.mp ?_)
      exact (beq_iff_eq.mp e : name = dotted) ▸ hn
    rw [missing]
    rfl

/-- The first entry under a name is that of the first file which answers to it. -/
theorem find?_entries (files : List Path) (dotted : String) :
    ((files.flatMap fun file => (dottedNames file).map fun name => (name, file)).find?
        fun e => e.1 == dotted).map (fun e => e.2) =
      files.find? fun file => decide (file.AnswersTo dotted) := by
  induction files with
  | nil => rfl
  | cons file files ih =>
      rw [List.flatMap_cons, List.find?_append, Option.map_or, ih, find?_entriesOf, List.find?_cons]
      by_cases h : file.AnswersTo dotted
      · simp [h]
      · simp [h]

theorem pythonModule?_eq_find? (files : List Path) (dotted : String) :
    (ofFiles files).pythonModule? dotted =
      ((files.filter isPythonFile).mergeSort shallowLe).find?
        fun file => decide (file.AnswersTo dotted) :=
  find?_entries _ dotted

theorem isModule_iff {files : List Path} {dotted : String} {file : Path} :
    IsModule files dotted file ↔
      file ∈ (files.filter isPythonFile).mergeSort shallowLe ∧ file.AnswersTo dotted := by
  rw [List.mem_mergeSort, List.mem_filter, isPythonFile_iff]
  exact ⟨fun ⟨h₁, h₂, h₃⟩ => ⟨⟨h₁, h₂⟩, h₃⟩, fun ⟨⟨h₁, h₂⟩, h₃⟩ => ⟨h₁, h₂, h₃⟩⟩

/-- A name leads nowhere exactly if no file answers to it. -/
theorem pythonModule?_eq_none_iff {files : List Path} {dotted : String} :
    (ofFiles files).pythonModule? dotted = none ↔ ∀ f, ¬ IsModule files dotted f := by
  simp only [pythonModule?_eq_find?, List.find?_eq_none, decide_eq_true_eq, isModule_iff, not_and]

/-- The file that a name leads to comes before all others that answer to it. -/
theorem shallower_of_pythonModule? {files : List Path} (spelled : Spelled files) {dotted : String}
    {f : Path} (h : (ofFiles files).pythonModule? dotted = some f) :
    IsModule files dotted f ∧ ∀ g, IsModule files dotted g → g ≠ f → f.Shallower g := by
  rw [pythonModule?_eq_find?, List.find?_eq_some_iff_append] at h
  obtain ⟨answers, front, back, e, missed⟩ := h
  have hf : IsModule files dotted f :=
    isModule_iff.mpr ⟨by simp [e], of_decide_eq_true answers⟩
  refine ⟨hf, fun g hg hne => ?_⟩
  have sorted := pairwise_mergeSort_shallowLe (files.filter isPythonFile)
  obtain ⟨place, hanswers⟩ := isModule_iff.mp hg
  rw [e] at place sorted
  rcases List.mem_append.mp place with before | after
  · simpa [hanswers] using missed g before
  · have after : g ∈ back := (List.mem_cons.mp after).resolve_left hne
    have le := (List.pairwise_cons.mp (List.pairwise_append.mp sorted).2.1).1 g after
    exact (shallower_or_same le).resolve_right fun same =>
      hne (spelled f hf.mem g hg.mem same).symm

/-- **Lookup.**  Among normal paths, a dotted name leads to the file that comes before all others
which answer to it, and nowhere exactly if no file answers to it. -/
theorem pythonModule?_least (files : List Path) (normal : ∀ p ∈ files, p.normalize = p)
    (dotted : String) :
    (∀ f, (ofFiles files).pythonModule? dotted = some f ↔
      IsModule files dotted f ∧ ∀ g, IsModule files dotted g → g ≠ f → f.Shallower g) ∧
    ((ofFiles files).pythonModule? dotted = none ↔ ∀ f, ¬ IsModule files dotted f) := by
  have spelled : Spelled files := Graph.spelled_of_normal fun p hp => ⟨p, (normal p hp).symm⟩
  refine ⟨fun f => ⟨shallower_of_pythonModule? spelled, ?_⟩, pythonModule?_eq_none_iff⟩
  rintro ⟨hf, least⟩
  cases e : (ofFiles files).pythonModule? dotted with
  | none => exact absurd hf (pythonModule?_eq_none_iff.mp e f)
  | some g =>
      obtain ⟨hg, before⟩ := shallower_of_pythonModule? spelled e
      by_contra hne
      have hne : g ≠ f := fun h => hne (congrArg some h)
      exact (least g hg hne).asymm (before f hf hne.symm)

/-- A package, a module and a stub whose names clash. -/
def clashingFiles : List Path := [⟨"app/core/__init__.py"⟩, ⟨"core.py"⟩, ⟨"lib/app/core.pyi"⟩]

/-- All three files end in `core`, but the stub is too deep to be found by this name alone; it has
as many steps as the package. -/
theorem pythonModule?_least_clashing :
    (∀ p ∈ clashingFiles, p.normalize = p) ∧
      (ofFiles clashingFiles).pythonModule? "core" = some ⟨"core.py"⟩ ∧
      (ofFiles clashingFiles).pythonModule? "app.core" = some ⟨"app/core/__init__.py"⟩ ∧
      (ofFiles clashingFiles).pythonModule? "lib.app" = none := by
  have normal : ∀ p ∈ clashingFiles, p.normalize = p := by decide +kernel
  have found {dotted : String} {f : Path} (h : IsModule clashingFiles dotted f)
      (least : ∀ g ∈ clashingFiles, IsModule clashingFiles dotted g → g ≠ f → f.Shallower g) :
      (ofFiles clashingFiles).pythonModule? dotted = some f :=
    ((pythonModule?_least clashingFiles normal dotted).1 f).mpr ⟨h, fun g hg => least g hg.mem hg⟩
  refine ⟨normal, found (by decide +kernel) (by decide +kernel),
    found (by decide +kernel) (by decide +kernel), ?_⟩
  refine (pythonModule?_least clashingFiles normal "lib.app").2.mpr fun f hf => ?_
  exact (by decide +kernel : ∀ g ∈ clashingFiles, ¬ IsModule clashingFiles "lib.app" g) f hf.mem hf

end Resolver

end ArchReview

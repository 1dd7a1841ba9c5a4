import ArchReview.Proofs.Path.Normal

/-!
# Normal forms of joined paths

Only what stands between separators counts for the normal form of a path (`normalSteps_eq`), and a
joined path has the steps of its parts one after the other.  So the normal form of a joined path
depends on the normal form of its first part only (`normalize_join_congr`).

A normal form is its own normal form (`normalize_normalize`): it is a list of steps each of which
is kept as it is (`Kept`).  The normal form of the path of a file names the same file in the same
directory (`respelled_normalize`).
-/

namespace ArchReview.Path

/-! ### Steps between separators -/

/-- The steps that a text spells, whatever it starts with. -/
def spelledSteps (s : List Char) : List Component := stepsOf (Text.splitWhere (· == '/') s)

theorem spelledSteps_append (s t : List Char) :
    spelledSteps (s ++ '/' :: t) = spelledSteps s ++ spelledSteps t := by
  simp only [spelledSteps, Text.splitWhere_eq_splitOnP]
  rw [List.splitOnP_append_cons s t (by rfl)]
  exact List.filterMap_append

theorem spelledSteps_nil : spelledSteps [] = [] := rfl

/-- A root and a `.` in first place say nothing. -/
theorem normalSteps_eq (p : Path) :
    p.normalSteps = (spelledSteps p.text.toList).foldl (normalStep p.isAbsolute) [] := by
  rw [normalSteps, components]
  split
  · rename_i rest e
    rw [e]
    rfl
  · split
    · rename_i rest e
      rw [spelledSteps, e]
      rfl
    · rfl

/-! ### Joined paths -/

section Join

variable {p q : Path} (hq : q.isAbsolute = false)
include hq

theorem join_cases :
    p.text.toList = [] ∧ p.join q = q ∨
      (∃ s, p.text.toList = s ++ ['/'] ∧ (p.join q).text.toList = s ++ '/' :: q.text.toList) ∨
      p.text.toList ≠ [] ∧ (p.join q).text.toList = p.text.toList ++ '/' :: q.text.toList := by
  rw [join, if_neg (by simp [hq])]
  split
  · rename_i e
    exact Or.inl ⟨List.getLast?_eq_none_iff.mp e, rfl⟩
  · rename_i e
    obtain ⟨s, hs⟩ := List.getLast?_eq_some_iff.mp e
    exact Or.inr (Or.inl ⟨s, hs, by simp [hs]⟩)
  · rename_i e
    exact Or.inr (Or.inr ⟨by rintro h; simp [h] at e, by simp⟩)

theorem isAbsolute_join : (p.join q).isAbsolute = p.isAbsolute := by
  rcases join_cases hq with ⟨hp, e⟩ | ⟨s, hp, e⟩ | ⟨hp, e⟩
  · rw [e, hq, isAbsolute, hp]
    rfl
  · rw [isAbsolute, isAbsolute, e, hp]
    cases s <;> rfl
  · rw [isAbsolute, isAbsolute, e]
    cases h : p.text.toList with
    | nil => exact absurd h hp
    | cons c s => rfl

theorem spelledSteps_join : spelledSteps (p.join q).text.toList =
    spelledSteps p.text.toList ++ spelledSteps q.text.toList := by
  rcases join_cases hq with ⟨hp, e⟩ | ⟨s, hp, e⟩ | ⟨-, e⟩
  · rw [e, hp, spelledSteps_nil, List.nil_append]
  · rw [e, hp, spelledSteps_append, spelledSteps_append, spelledSteps_nil, List.append_nil]
  · rw [e, spelledSteps_append]

/-- A joined path goes on from the normal form of its first part. -/
theorem normalSteps_join : (p.join q).normalSteps =
    (spelledSteps q.text.toList).foldl (normalStep p.isAbsolute) p.normalSteps := by
  rw [normalSteps_eq, normalSteps_eq, spelledSteps_join hq, isAbsolute_join hq, List.foldl_append]

end Join

theorem join_of_isAbsolute {p q : Path} (h : q.isAbsolute = true) : p.join q = q := by
  rw [join, if_pos h]

/-- A normal form is told by where it starts and by its steps. -/
theorem normalize_eq_iff {p q : Path} :
    p.normalize = q.normalize ↔ p.isAbsolute = q.isAbsolute ∧ p.normalSteps = q.normalSteps := by
  constructor
  · intro h
    have e := congrArg components h
    have root : ∀ r : Path, .root ∉ r.normalSteps.reverse := fun r hr =>
      plain_of_mem_normalSteps _ (List.mem_reverse.mp hr)
    rw [components_normalize, components_normalize] at e
    -- the steps of a path hold no root, so both paths start at one or neither does
    split at e <;> split at e
    · rename_i hp hq
      exact ⟨hp.trans hq.symm, List.reverse_inj.mp (List.cons.inj e).2⟩
    · exact absurd (e ▸ List.mem_cons_self) (root q)
    · exact absurd (e ▸ List.mem_cons_self) (root p)
    · rename_i hp hq
      exact ⟨by simp_all, List.reverse_inj.mp e⟩
  · rintro ⟨h₁, h₂⟩
    rw [normalize, normalize, h₁, h₂]

/-- **The normal form of a joined path depends on the normal form of its first part only.** -/
theorem normalize_join_congr {p q : Path} (h : p.normalize = q.normalize) (r : Path) :
    (p.join r).normalize = (q.join r).normalize := by
  cases hr : r.isAbsolute with
  | true => rw [join_of_isAbsolute hr, join_of_isAbsolute hr]
  | false =>
      obtain ⟨h₁, h₂⟩ := normalize_eq_iff.mp h
      rw [normalize_eq_iff, isAbsolute_join hr, isAbsolute_join hr, normalSteps_join hr,
        normalSteps_join hr, h₁, h₂]
      exact ⟨rfl, rfl⟩

/-! ### Normal forms of normal forms -/

/-- Each of the steps, last step first, is kept as it is after those before it. -/
def Kept (absolute : Bool) : List Component → Prop
  | []        => True
  | c :: rest => normalStep absolute rest c = c :: rest ∧ Kept absolute rest

theorem Kept.normalStep {absolute : Bool} {kept : List Component} (h : Kept absolute kept)
    (step : Component) : Kept absolute (normalStep absolute kept step) := by
  cases step with
  | root | current => exact h
  | name s => exact ⟨rfl, h⟩
  | parent =>
      -- a `..` takes back a name; behind anything else it is kept, or dropped at the root
      rcases kept with _ | ⟨_ | _ | _ | s, rest⟩
      case cons.name => exact h.2
      all_goals
        cases absolute with
        | true => exact h
        | false => exact ⟨rfl, h⟩

theorem Kept.foldl {absolute : Bool} : ∀ (steps : List Component) {kept : List Component},
    Kept absolute kept → Kept absolute (steps.foldl (Path.normalStep absolute) kept)
  | [], _, h => h
  | step :: steps, _, h => foldl steps (h.normalStep step)

theorem kept_normalSteps (p : Path) : Kept p.isAbsolute p.normalSteps := Kept.foldl _ trivial

/-- Steps that are kept are found again. -/
theorem Kept.foldl_reverse {absolute : Bool} : ∀ {kept : List Component}, Kept absolute kept →
    kept.reverse.foldl (Path.normalStep absolute) [] = kept
  | [], _ => rfl
  | c :: rest, h => by
      rw [List.reverse_cons, List.foldl_append, h.2.foldl_reverse]
      exact h.1

theorem isAbsolute_normalize (p : Path) : p.normalize.isAbsolute = p.isAbsolute := by
  rw [isAbsolute_eq p.normalize, components_normalize]
  cases p.isAbsolute with
  | true => rfl
  | false =>
      cases e : p.normalSteps.reverse with
      | nil => rfl
      | cons c rest =>
          have hc := plain_of_mem_normalSteps c (List.mem_reverse.mp (e ▸ List.mem_cons_self))
          cases c with
          | root => exact hc.elim
          | current | parent | name s => rfl

theorem normalSteps_normalize (p : Path) : p.normalize.normalSteps = p.normalSteps := by
  rw [normalSteps, isAbsolute_normalize, components_normalize]
  split
  · exact p.kept_normalSteps.foldl_reverse
  · exact p.kept_normalSteps.foldl_reverse

/-- **A normal form is its own normal form.** -/
theorem normalize_normalize (p : Path) : p.normalize.normalize = p.normalize :=
  normalize_eq_iff.mpr ⟨p.isAbsolute_normalize, p.normalSteps_normalize⟩

/-! ### Directories -/

theorem components_ofComponents_current {steps : List Component} (h : ∀ c ∈ steps, c.Plain) :
    (ofComponents (.current :: steps)).components = .current :: steps := by
  have hs : ∀ c ∈ Component.current :: steps, '/' ∉ piece c :=
    List.forall_mem_cons.mpr ⟨by decide +kernel, fun c hc => slash_not_mem_piece (h c hc)⟩
  have cut := splitWhere_intercalate hs (List.cons_ne_nil _ _)
  change Text.splitWhere (· == '/') (ofComponents (.current :: steps)).text.toList =
    ['.'] :: steps.map piece at cut
  rw [components]
  split
  · rename_i rest e
    rw [e, Text.splitWhere_cons] at cut
    cases cut
  · rw [cut]
    exact congrArg (Component.current :: ·) (stepsOf_map_piece h)

/-- The directory of a path is read as all steps but the last. -/
theorem components_directory (p : Path) : p.directory.components = p.components.dropLast := by
  obtain ⟨steps, hplain, h⟩ := p.components_cases
  have hdrop : ∀ c ∈ steps.dropLast, c.Plain := fun c hc => hplain c (List.dropLast_subset _ hc)
  have hempty : (ofComponents []).components = [] := by decide +kernel
  rcases h with ⟨-, e⟩ | ⟨-, e | e⟩ <;> rw [directory, e]
  · cases steps with
    | nil => exact hempty
    | cons c steps => exact components_ofComponents_root hdrop
  · cases steps with
    | nil => exact hempty
    | cons c steps => exact components_ofComponents_current hdrop
  · exact components_ofComponents hdrop

section FileName

variable {p : Path} {s : String} (h : p.fileName? = some s)
include h

/-- The path of a file is its directory and its name. -/
theorem components_of_fileName : p.components = p.directory.components ++ [.name s] := by
  rw [fileName?] at h
  split at h
  · rename_i e
    obtain rfl := Option.some.inj h
    rw [components_directory, List.dropLast_append_getLast? _ e]
  · cases h

theorem isAbsolute_directory : p.directory.isAbsolute = p.isAbsolute := by
  rw [isAbsolute_eq, isAbsolute_eq p, components_of_fileName h]
  cases p.directory.components <;> rfl

theorem normalSteps_of_fileName : p.normalSteps = .name s :: p.directory.normalSteps := by
  rw [normalSteps, components_of_fileName h, List.foldl_append, normalSteps, isAbsolute_directory h]
  rfl

theorem components_normalize_of_fileName :
    p.normalize.components = p.directory.normalize.components ++ [.name s] := by
  rw [components_normalize, components_normalize, isAbsolute_directory h, normalSteps_of_fileName h,
    List.reverse_cons]
  split <;> rfl

theorem fileName?_normalize : p.normalize.fileName? = some s := by
  rw [fileName?, components_normalize_of_fileName h, List.getLast?_concat]

/-- The directory of a normal form is a normal form. -/
theorem directory_normalize : p.normalize.directory = p.directory.normalize := by
  rw [directory, components_normalize_of_fileName h, List.dropLast_concat, components_normalize]
  rfl

end FileName

/-- Two spellings, by way of other directories perhaps, of the path of one file. -/
structure Respelled (p q : Path) : Prop where
  normalize_eq : p.normalize = q.normalize
  fileName?_eq : p.fileName? = q.fileName?
  directory_eq : p.directory.normalize = q.directory.normalize

theorem Respelled.extension?_eq {p q : Path} (h : p.Respelled q) : p.extension? = q.extension? := by
  rw [extension?, extension?, h.fileName?_eq]

/-- **The normal form of the path of a file is a spelling of it.** -/
theorem respelled_normalize {p : Path} (h : p.fileName?.isSome = true) :
    p.Respelled p.normalize := by
  obtain ⟨s, hs⟩ := Option.isSome_iff_exists.mp h
  refine ⟨p.normalize_normalize.symm, ?_, ?_⟩
  · rw [hs, fileName?_normalize hs]
  · rw [directory_normalize hs, normalize_normalize]

end ArchReview.Path

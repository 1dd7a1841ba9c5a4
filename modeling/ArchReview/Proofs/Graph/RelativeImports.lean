import ArchReview.Proofs.Graph.Accounting
import ArchReview.Proofs.Graph.Submodules
import ArchReview.Proofs.Path.Extension

/-!
# Where relative imports lead

A relative import looks its base up, and its names below the base.  A module at a path `x` may be in
the file `x.py` or `x.pyi`, or be the package `x/__init__.py` (`Path.moduleFiles`).  The lookup does
not add the extension to the path, it sets it: from a directory `pkg.v1` it comes to `pkg.py`.

**Relative imports** (`targets_relative_exact`).  Every file that a relative import leads to is a
file of the module at its base or at one of its names, or the path of this module ends in a name
with an extension, or in no name at all, and its extension was replaced.  When the names are words,
the second happens exactly if the base is such a path, a file has this other name, and the base is
looked up: not all names of the import are modules, or there are none.
-/

namespace ArchReview
open Resolver (addExtension)

/-- The files that the module at a path may be in. -/
def Path.moduleFiles (p : Path) : List Path :=
  pythonExtensions.map (addExtension p) ++ [p.join ⟨"__init__.py"⟩]

/-- What an import with a base looks up. -/
def Import.LooksUp (i : Import) (base x : Path) : Prop :=
  x = base ∨ ∃ n ∈ i.importedNames, x = base.join ⟨n⟩

/-- A name that could be an identifier: neither dots nor separators. -/
def IsPlainName (n : String) : Prop := n ≠ "" ∧ '.' ∉ n.toList ∧ '/' ∉ n.toList

theorem IsPlainName.plain {n : String} (h : IsPlainName n) : (Component.name n).Plain := by
  obtain ⟨hne, hdot, hslash⟩ := h
  refine ⟨by simpa using hne, ?_, ?_, hslash⟩
  · intro e; simp [e] at hdot
  · intro e; simp [e] at hdot

/-! ### Candidates for a module -/

namespace Path

/-- The files that are looked for, the preferred one first. -/
def moduleCandidates (p : Path) : List Path :=
  pythonExtensions.map p.withExtension ++ [p.join ⟨"__init__.py"⟩]

theorem plain_init : (Component.name "__init__.py").Plain := by
  unfold Component.Plain
  decide

theorem pythonExtension {ext : String} (h : ext ∈ pythonExtensions) :
    '/' ∉ ext.toList ∧ '.' ∉ ext.toList ∧ 2 ≤ ext.toList.length := by
  revert ext
  decide

variable {p : Path} (hp : p.Tidy)
include hp

theorem Tidy.withExtension {ext : String} (he : ext ∈ pythonExtensions) :
    (p.withExtension ext).Tidy := by
  obtain ⟨slash, -, len⟩ := pythonExtension he
  cases hs : p.fileName? with
  | none => rwa [withExtension_of_fileName?_eq_none hs]
  | some s =>
      rw [hp.withExtension_eq hs slash len]
      exact hp.directory.join (hp.plain_replaced hs slash len)

theorem Tidy.length_withExtension {ext : String} (he : ext ∈ pythonExtensions) :
    (p.withExtension ext).components.length = p.components.length := by
  obtain ⟨slash, -, len⟩ := pythonExtension he
  cases hs : p.fileName? with
  | none => rw [withExtension_of_fileName?_eq_none hs]
  | some s =>
      rw [hp.withExtension_eq hs slash len,
        hp.directory.components_join (hp.plain_replaced hs slash len), components_of_fileName hs]
      simp

theorem Tidy.tidy_of_mem_moduleCandidates {f : Path} (h : f ∈ p.moduleCandidates) : f.Tidy := by
  rcases List.mem_append.mp h with h | h
  · obtain ⟨ext, he, rfl⟩ := List.mem_map.mp h
    exact hp.withExtension he
  · rw [List.mem_singleton.mp h]
    exact hp.join plain_init

/-- For a path without an extension the right files are looked for. -/
theorem Tidy.moduleCandidates_eq (hw : p.Whole) : p.moduleCandidates = p.moduleFiles := by
  unfold moduleCandidates moduleFiles
  congr 1
  refine List.map_congr_left fun ext he => ?_
  obtain ⟨slash, -, len⟩ := pythonExtension he
  exact hw.withExtension_eq hp slash len

theorem Tidy.mem_moduleCandidates_cases {f : Path} (h : f ∈ p.moduleCandidates) :
    f ∈ p.moduleFiles ∨ ¬ p.Whole ∧ ∃ ext ∈ pythonExtensions, f = p.withExtension ext := by
  by_cases hw : p.Whole
  · exact Or.inl (hp.moduleCandidates_eq hw ▸ h)
  · rcases List.mem_append.mp h with h | h
    · obtain ⟨ext, he, rfl⟩ := List.mem_map.mp h
      exact Or.inr ⟨hw, ext, he, rfl⟩
    · exact Or.inl (List.mem_append_right _ h)

/-- Where setting an extension replaces another, adding one gives something else. -/
theorem Tidy.withExtension_ne_addExtension (hw : ¬ p.Whole) {ext other : String}
    (he : ext ∈ pythonExtensions) (ho : other ∈ pythonExtensions) :
    p.withExtension ext ≠ addExtension p other := by
  obtain ⟨slash, dot, len⟩ := pythonExtension he
  obtain ⟨oslash, -, olen⟩ := pythonExtension ho
  intro e
  cases hs : p.fileName? with
  | none =>
      rw [withExtension_of_fileName?_eq_none hs] at e
      have longer := congrArg (fun q => q.text.toList.length) e
      simp [addExtension] at longer
  | some s =>
      rw [hp.withExtension_eq hs slash len, hp.addExtension_eq hs oslash olen] at e
      have names := congrArg Path.text (join_right_inj
        (isAbsolute_name (hp.plain_replaced hs slash len))
        (isAbsolute_name (plain_extended (hp.plain_fileName hs).2.2.2 oslash olen)) e)
      rcases cutName_cases s with cut | ⟨stem, old, cut, rfl, -⟩
      · exact hw (whole_iff.mpr ⟨s, hs, cut⟩)
      · -- the old extension would be part of the new one, with the dot behind it
        have tails := congrArg String.toList names
        simp only [cut, String.toList_append, List.append_assoc,
          List.append_cancel_left_eq] at tails
        exact dot (by simp [tails])

/-- For any other path the files whose extension is set are wrong. -/
theorem Tidy.withExtension_not_mem (hw : ¬ p.Whole) {ext : String} (he : ext ∈ pythonExtensions) :
    p.withExtension ext ∉ p.moduleFiles := by
  intro h
  rcases List.mem_append.mp h with h | h
  · obtain ⟨other, ho, e⟩ := List.mem_map.mp h
    exact hp.withExtension_ne_addExtension hw he ho e.symm
  · have steps := congrArg (fun q => q.components.length) (List.mem_singleton.mp h)
    simp [hp.length_withExtension he, hp.components_join plain_init] at steps

/-- All files of a module below a path have more steps than the path. -/
theorem Tidy.length_lt_of_mem_moduleFiles {n : String} (hn : IsPlainName n) {f : Path}
    (h : f ∈ (p.join ⟨n⟩).moduleFiles) : p.components.length < f.components.length := by
  rcases List.mem_append.mp h with h | h
  · obtain ⟨ext, he, rfl⟩ := List.mem_map.mp h
    obtain ⟨slash, -, len⟩ := pythonExtension he
    have extended := plain_extended hn.2.2 slash len
    rw [addExtension_join p hn.plain extended, hp.components_join extended]
    simp
  · rw [List.mem_singleton.mp h, (hp.join hn.plain).components_join plain_init,
      hp.components_join hn.plain]
    simp

theorem Tidy.whole_join {n : String} (hn : IsPlainName n) : (p.join ⟨n⟩).Whole := by
  have name : (p.join ⟨n⟩).fileName? = some n := by
    rw [fileName?, hp.components_join hn.plain, List.getLast?_concat]
  rcases cutName_cases n with cut | ⟨stem, ext, -, rfl, -⟩
  · exact whole_iff.mpr ⟨n, name, cut⟩
  · exact absurd hn.2.1 (by simp)

omit hp in
/-- For a word below a base the right files are looked for. -/
theorem moduleCandidates_join (base : Path) {n : String} (hn : IsPlainName n) :
    (base.join ⟨n⟩).normalize.moduleCandidates = (base.join ⟨n⟩).normalize.moduleFiles := by
  refine (tidy_normalize _).moduleCandidates_eq ?_
  rw [normalize_join_name base hn.plain]
  exact base.tidy_normalize.whole_join hn

end Path

/-- A file whose extension is replaced belongs to nothing else that is looked up. -/
theorem Import.LooksUp.withExtension_not_mem {i : Import} {base x : Path} (hx : i.LooksUp base x)
    (words : ∀ n ∈ i.importedNames, IsPlainName n) (hw : ¬ base.normalize.Whole) {ext : String}
    (he : ext ∈ pythonExtensions) :
    base.normalize.withExtension ext ∉ x.normalize.moduleFiles := by
  rcases hx with rfl | ⟨n, hn, rfl⟩
  · exact x.tidy_normalize.withExtension_not_mem hw he
  · rw [Path.normalize_join_name base (words n hn).plain]
    intro h
    have deeper := base.tidy_normalize.length_lt_of_mem_moduleFiles (words n hn) h
    rw [base.tidy_normalize.length_withExtension he] at deeper
    exact Nat.lt_irrefl _ deeper

/-! ### What a resolver finds -/

namespace Resolver

section Tidy

variable {files : List Path} (tidy : ∀ f ∈ files, f.Tidy)
include tidy

/-- A tidy path is found as it stands. -/
theorem file?_eq {c : Path} (hc : c.Tidy) :
    (ofFiles files).file? c = if c ∈ files then some c else none := by
  split
  · rename_i h
    obtain ⟨f, hf⟩ := Option.isSome_iff_exists.mp
      (List.find?_isSome.mpr ⟨c, h, Path.same_refl c⟩ : ((ofFiles files).file? c).isSome = true)
    have same := List.find?_some hf
    rw [file?, hf, (tidy f (mem_of_file? hf)).eq_of_same hc same]
  · rename_i h
    refine List.find?_eq_none.mpr fun f hf same => h ?_
    rwa [← (tidy f hf).eq_of_same hc same]

theorem mem_moduleCandidates_of_pythonFile? {x f : Path}
    (h : (ofFiles files).pythonFile? x = some f) : f ∈ x.normalize.moduleCandidates := by
  obtain ⟨c, hc, found⟩ := List.exists_of_findSome?_eq_some h
  rw [file?_eq tidy (x.tidy_normalize.tidy_of_mem_moduleCandidates hc)] at found
  split at found
  · exact Option.some.inj found ▸ hc
  · cases found

theorem pythonFile?_eq_none_iff {x : Path} :
    (ofFiles files).pythonFile? x = none ↔ ∀ c ∈ x.normalize.moduleCandidates, c ∉ files := by
  change x.normalize.moduleCandidates.findSome? (ofFiles files).file? = none ↔ _
  rw [List.findSome?_eq_none_iff]
  refine forall₂_congr fun c hc => ?_
  rw [file?_eq tidy (x.tidy_normalize.tidy_of_mem_moduleCandidates hc)]
  simp

/-- A file whose extension is set is preferred to the file of a package. -/
theorem exists_pythonFile?_withExtension {x : Path} {ext : String} (he : ext ∈ pythonExtensions)
    (h : x.normalize.withExtension ext ∈ files) :
    ∃ other ∈ pythonExtensions,
      (ofFiles files).pythonFile? x = some (x.normalize.withExtension other) := by
  have found : ((pythonExtensions.map x.normalize.withExtension).findSome?
      (ofFiles files).file?).isSome = true := by
    refine List.findSome?_isSome_iff.mpr ⟨_, List.mem_map_of_mem he, ?_⟩
    rw [file?_eq tidy (x.tidy_normalize.withExtension he), if_pos h]
    rfl
  obtain ⟨f, hf⟩ := Option.isSome_iff_exists.mp found
  obtain ⟨c, hc, hcf⟩ := List.exists_of_findSome?_eq_some hf
  obtain ⟨other, ho, rfl⟩ := List.mem_map.mp hc
  rw [file?_eq tidy (x.tidy_normalize.withExtension ho)] at hcf
  split at hcf
  · refine ⟨other, ho, ?_⟩
    change (List.map _ _ ++ _).findSome? _ = _
    rw [List.findSome?_append, hf, hcf]
    rfl
  · cases hcf

/-- A word below a base is not found if none of the files is there in which its module may be. -/
theorem pythonFile?_join_eq_none_iff {base : Path} {n : String} (hn : IsPlainName n) :
    (ofFiles files).pythonFile? (base.join ⟨n⟩) = none ↔
      ∀ f ∈ (base.join ⟨n⟩).normalize.moduleFiles, f ∉ files := by
  rw [pythonFile?_eq_none_iff tidy, Path.moduleCandidates_join base hn]

end Tidy

section Relative

variable {files : List Path} (hf : Ascending files) {i : Import} {base : Path}
  (relative : i.isRelative = true) (hb : i.resolvedBase = some base)
include hf relative hb

/-- **Where a relative import leads**: to the files found for its names, and to the file found for
its base if it takes no names or one that is not found. -/
theorem mem_targets_relative {f : Path} :
    f ∈ (ofFiles files).targets .python i ↔
      (∃ n, i.Takes n ∧ (ofFiles files).pythonFile? (base.join ⟨n⟩) = some f) ∨
        (ofFiles files).pythonFile? base = some f ∧
          ((∀ n, ¬ i.Takes n) ∨
            ∃ n, i.Takes n ∧ (ofFiles files).pythonFile? (base.join ⟨n⟩) = none) := by
  rw [mem_targets_python hf, pythonTargets, relative, hb]
  exact mem_withPackage_names

variable (tidy : ∀ f ∈ files, f.Tidy)
include tidy

/-- What a relative import leads to was looked for as the file of a module. -/
theorem exists_looksUp_of_mem_targets {f : Path} (h : f ∈ (ofFiles files).targets .python i) :
    ∃ x, i.LooksUp base x ∧ f ∈ x.normalize.moduleCandidates := by
  rcases (mem_targets_relative hf relative hb).mp h with ⟨n, takes, found⟩ | ⟨found, -⟩
  · exact ⟨_, Or.inr ⟨n, takes.1, rfl⟩, mem_moduleCandidates_of_pythonFile? tidy found⟩
  · exact ⟨base, Or.inl rfl, mem_moduleCandidates_of_pythonFile? tidy found⟩

variable (words : ∀ n ∈ i.importedNames, IsPlainName n)
include words

/-- With words for names, only the base can lead elsewhere, and only if it is looked up. -/
theorem mem_moduleFiles_or_stray {f : Path} (h : f ∈ (ofFiles files).targets .python i) :
    (∃ x, i.LooksUp base x ∧ f ∈ x.normalize.moduleFiles) ∨
      ¬ base.normalize.Whole ∧
      (∃ ext ∈ pythonExtensions, base.normalize.withExtension ext ∈ files) ∧
      ((∀ n, ¬ i.Takes n) ∨
        ∃ n, i.Takes n ∧ ∀ f ∈ (base.join ⟨n⟩).normalize.moduleFiles, f ∉ files) := by
  rcases (mem_targets_relative hf relative hb).mp h with ⟨n, takes, found⟩ | ⟨found, looked⟩
  · refine Or.inl ⟨_, Or.inr ⟨n, takes.1, rfl⟩, ?_⟩
    rw [← Path.moduleCandidates_join base (words n takes.1)]
    exact mem_moduleCandidates_of_pythonFile? tidy found
  · rcases base.tidy_normalize.mem_moduleCandidates_cases
      (mem_moduleCandidates_of_pythonFile? tidy found) with kept | ⟨hw, ext, he, rfl⟩
    · exact Or.inl ⟨base, Or.inl rfl, kept⟩
    · refine Or.inr ⟨hw, ⟨ext, he, mem_of_pythonFile? found⟩, looked.imp_right ?_⟩
      rintro ⟨n, takes, absent⟩
      exact ⟨n, takes, (pythonFile?_join_eq_none_iff tidy (words n takes.1)).mp absent⟩

/-- If the base is looked up, a file with its extension replaced is found before all others. -/
theorem exists_stray_target {ext : String} (he : ext ∈ pythonExtensions)
    (hmem : base.normalize.withExtension ext ∈ files)
    (looked : (∀ n, ¬ i.Takes n) ∨
      ∃ n, i.Takes n ∧ ∀ f ∈ (base.join ⟨n⟩).normalize.moduleFiles, f ∉ files) :
    ∃ other ∈ pythonExtensions,
      base.normalize.withExtension other ∈ (ofFiles files).targets .python i := by
  obtain ⟨other, ho, found⟩ := exists_pythonFile?_withExtension tidy he hmem
  refine ⟨other, ho, (mem_targets_relative hf relative hb).mpr (Or.inr ⟨found, ?_⟩)⟩
  refine looked.imp_right ?_
  rintro ⟨n, takes, absent⟩
  exact ⟨n, takes, (pythonFile?_join_eq_none_iff tidy (words n takes.1)).mpr absent⟩

end Relative

theorem tidy_of_mem_nodes {outlines : List Outline} {policy : SelfLoops} :
    ∀ f ∈ (Graph.ofOutlines outlines policy).nodes, f.Tidy := by
  intro f hf
  obtain ⟨o, -, rfl⟩ := (Graph.mem_nodes_ofOutlines outlines policy).mp hf
  exact o.path.tidy_normalize

/-- **Relative imports.**  They lead to files of the modules at the paths that are looked up, except
where the extension of such a path is replaced.  If the names are words, there is an exception
exactly if the base does not end in a name without an extension, some file is called like the base
with its extension replaced, and the base is looked up: not all names are modules, or there are
none. -/
theorem targets_relative_exact (outlines : List Outline) (policy : SelfLoops) (i : Import)
    (base : Path) (relative : i.isRelative = true) (hb : i.resolvedBase = some base) :
    let nodes := (Graph.ofOutlines outlines policy).nodes
    let targets := (ofFiles nodes).targets .python i
    (∀ f ∈ targets, ∃ x, i.LooksUp base x ∧
      (f ∈ x.normalize.moduleFiles ∨
        ¬ x.normalize.Whole ∧ ∃ ext ∈ pythonExtensions, f = x.normalize.withExtension ext)) ∧
    ((∀ n ∈ i.importedNames, IsPlainName n) →
      ((∃ f ∈ targets, ∀ x, i.LooksUp base x → f ∉ x.normalize.moduleFiles) ↔
        ¬ base.normalize.Whole ∧
        (∃ ext ∈ pythonExtensions, base.normalize.withExtension ext ∈ nodes) ∧
        ((∀ n, ¬ i.Takes n) ∨
          ∃ n, i.Takes n ∧ ∀ f ∈ (base.join ⟨n⟩).normalize.moduleFiles, f ∉ nodes))) := by
  intro nodes targets
  have ascending := (Graph.ofOutlines_proper outlines policy).ascending
  have tidy : ∀ f ∈ nodes, f.Tidy := tidy_of_mem_nodes
  refine ⟨fun f hf => ?_, fun words => ⟨?_, ?_⟩⟩
  · obtain ⟨x, hx, h⟩ := exists_looksUp_of_mem_targets ascending relative hb tidy hf
    exact ⟨x, hx, x.tidy_normalize.mem_moduleCandidates_cases h⟩
  · rintro ⟨f, hf, outside⟩
    refine (mem_moduleFiles_or_stray ascending relative hb tidy words hf).resolve_left ?_
    rintro ⟨x, hx, h⟩
    exact outside x hx h
  · rintro ⟨hw, ⟨ext, he, hmem⟩, looked⟩
    obtain ⟨other, ho, target⟩ :=
      exists_stray_target ascending relative hb tidy words he hmem looked
    exact ⟨_, target, fun x hx => hx.withExtension_not_mem words hw ho⟩

/-! ### A directory with a dot in its name -/

/-- A package in a directory `pkg.v1`, beside a module `pkg`. -/
def versionedSources : List SourceFile :=
  [⟨⟨"pkg.py"⟩, .python, "".toUTF8⟩, ⟨⟨"pkg.v1/__init__.py"⟩, .python, "".toUTF8⟩,
    ⟨⟨"pkg.v1/mod.py"⟩, .python, "from . import settings\n".toUTF8⟩]

def versionedOutlines : List Outline :=
  versionedSources.map fun source => (({} : Reader).read source).outline

/-- The import of the last file. -/
def versionedImport : Import where
  modulePath := "."
  importedNames := ["settings"]
  bindings := ["settings"]
  isRelative := true
  resolvedBase := some ⟨"pkg.v1"⟩
  kind := .static
  sourceFile := ⟨"pkg.v1/mod.py"⟩
  line := 1

theorem nodes_versionedOutlines : (Graph.ofOutlines versionedOutlines .suppress).nodes =
    [⟨"pkg.py"⟩, ⟨"pkg.v1/__init__.py"⟩, ⟨"pkg.v1/mod.py"⟩] := by
  have paths : versionedOutlines.map (fun o => o.path.normalize) =
      versionedSources.map fun source => source.path.normalize := by
    simp only [versionedOutlines, List.map_map, Function.comp_def, Reader.path_read]
  rw [Graph.nodes_of_ascending (by rw [paths]; decide +kernel), paths]
  decide +kernel

/-- From the package itself the import goes astray; from a module of the package it would not, for
the path of the module ends in a name without an extension. -/
theorem targets_relative_exact_versioned :
    let targets := (ofFiles (Graph.ofOutlines versionedOutlines .suppress).nodes).targets .python
    let other := { versionedImport with modulePath := ".mod", resolvedBase := some ⟨"pkg.v1/mod"⟩ }
    versionedImport.isRelative = true ∧ versionedImport.resolvedBase = some ⟨"pkg.v1"⟩ ∧
      (∀ n ∈ versionedImport.importedNames, IsPlainName n) ∧
      (∃ f ∈ targets versionedImport,
        ∀ x, versionedImport.LooksUp ⟨"pkg.v1"⟩ x → f ∉ x.normalize.moduleFiles) ∧
      other.isRelative = true ∧ other.resolvedBase = some ⟨"pkg.v1/mod"⟩ ∧
      ¬ ∃ f ∈ targets other, ∀ x, other.LooksUp ⟨"pkg.v1/mod"⟩ x → f ∉ x.normalize.moduleFiles := by
  intro targets other
  have words : ∀ n ∈ versionedImport.importedNames, IsPlainName n := by
    unfold IsPlainName
    decide
  refine ⟨rfl, rfl, words, ?_, rfl, rfl, ?_⟩
  · have strays :=
      (targets_relative_exact versionedOutlines .suppress versionedImport _ rfl rfl).2 words
    refine strays.mpr ⟨by decide +kernel, ⟨"py", by decide, ?_⟩, Or.inr ⟨"settings", ?_, ?_⟩⟩
    · rw [nodes_versionedOutlines]
      decide +kernel
    · exact ⟨by decide, by decide, by decide⟩
    · rw [nodes_versionedOutlines]
      decide +kernel
  · have strays := (targets_relative_exact versionedOutlines .suppress other _ rfl rfl).2 words
    intro stray
    exact (strays.mp stray).1 (by decide +kernel)

/-- The import from the package leads to the module beside it, although the package has a file. -/
theorem targets_leave_base :
    let r := ofFiles (Graph.ofOutlines versionedOutlines .suppress).nodes
    (∃ o ∈ versionedOutlines, o.succeeded = true ∧ versionedImport ∈ o.imports) ∧
      versionedImport.isRelative = true ∧ versionedImport.resolvedBase = some ⟨"pkg.v1"⟩ ∧
      ⟨"pkg.py"⟩ ∈ r.targets .python versionedImport ∧
      ∀ x, versionedImport.LooksUp ⟨"pkg.v1"⟩ x → ⟨"pkg.py"⟩ ∉ x.normalize.moduleFiles := by
  intro r
  have ascending := (Graph.ofOutlines_proper versionedOutlines .suppress).ascending
  refine ⟨by decide +kernel, rfl, rfl, ?_, ?_⟩
  · refine (mem_targets_relative ascending rfl rfl).mpr (Or.inr ⟨?_, Or.inr ⟨"settings", ?_⟩⟩)
    · rw [nodes_versionedOutlines]
      decide +kernel
    · refine ⟨⟨by decide, by decide, by decide⟩, ?_⟩
      rw [nodes_versionedOutlines]
      decide +kernel
  · rintro x (rfl | ⟨n, hn, rfl⟩)
    · decide +kernel
    · rw [List.mem_singleton.mp hn]
      decide +kernel

end Resolver

end ArchReview

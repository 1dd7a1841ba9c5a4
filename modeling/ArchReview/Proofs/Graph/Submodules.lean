import ArchReview.Proofs.Graph.Alike
import ArchReview.Proofs.Outline.Reading

/-!
# Names imported from a package

An absolute import from a Python module `M` leads to the modules `M.n` of the names that it takes
out of `M`, and to `M` itself unless all of these are modules (`mem_targets_absolute`).  A name that
is spelled like `M` is left out: an `import M` is recorded with `M` as its only name, and the name
is taken to say no more than that.

**Submodules** (`mem_targets_submodule`).  So the file of `M.n` is among the targets whenever `n` is
not `M`; the file of `M.M` is only if something else leads to it.
-/

namespace ArchReview

/-- A name that an import takes out of its module, unless it is spelled like the module. -/
def Import.Takes (i : Import) (n : String) : Prop :=
  n ∈ i.importedNames ∧ n ≠ "*" ∧ n ≠ i.modulePath

namespace Resolver

theorem mem_submoduleNames {i : Import} {n : String} : n ∈ submoduleNames i ↔ i.Takes n := by
  simp [submoduleNames, Import.Takes]

/-- The package is added if there are no names or one of them is no module. -/
theorem mem_withPackage_iff {found : List (Option Path)} {package : Option Path} {f : Path} :
    f ∈ withPackage found package ↔
      some f ∈ found ∨ package = some f ∧ (found = [] ∨ none ∈ found) := by
  have modules : f ∈ found.filterMap id ↔ some f ∈ found := by simp
  have fallback : ((found.filterMap id).isEmpty || found.any Option.isNone) = true ↔
      found = [] ∨ none ∈ found := by
    cases found with
    | nil => simp
    | cons o rest =>
        cases o with
        | none => simp
        | some p => simp
  unfold withPackage
  dsimp only
  split
  · rename_i h
    rw [List.mem_append, modules, Option.mem_toList,
      and_iff_left (fallback.mp h)]
  · rename_i h
    rw [modules, or_iff_left fun hp => h (fallback.mpr hp.2)]

/-- The files that are found for the names which an import takes, and the package if there are none
or one was not found. -/
theorem mem_withPackage_names {i : Import} {find : String → Option Path} {package : Option Path}
    {f : Path} :
    f ∈ withPackage ((submoduleNames i).map find) package ↔
      (∃ n, i.Takes n ∧ find n = some f) ∨
        package = some f ∧ ((∀ n, ¬ i.Takes n) ∨ ∃ n, i.Takes n ∧ find n = none) := by
  have none_taken : submoduleNames i = [] ↔ ∀ n, ¬ i.Takes n := by
    simp only [List.eq_nil_iff_forall_not_mem, mem_submoduleNames]
  simp only [mem_withPackage_iff, List.mem_map, List.map_eq_nil_iff, none_taken, mem_submoduleNames]

/-- The targets of a Python import are the files found for it. -/
theorem mem_targets_python {files : List Path} (hf : Ascending files) {i : Import} {f : Path} :
    f ∈ (ofFiles files).targets .python i ↔ f ∈ (ofFiles files).pythonTargets i := by
  refine mem_pathSet fun p hp q hq => hf.spelled p ?_ q ?_
  · exact mem_of_mem_pythonTargets hp
  · exact mem_of_mem_pythonTargets hq

/-- The file of the module that a name stands for in another module. -/
def submodule? (r : Resolver) (i : Import) (n : String) : Option Path :=
  r.pythonModule? (i.modulePath ++ "." ++ n)

/-- **Where an absolute import leads**: to the modules among its names, and to the module itself if
it takes no names or one that is no module. -/
theorem mem_targets_absolute {files : List Path} (hf : Ascending files) {i : Import}
    (absolute : i.isRelative = false) {f : Path} :
    f ∈ (ofFiles files).targets .python i ↔
      (∃ n, i.Takes n ∧ (ofFiles files).submodule? i n = some f) ∨
        (ofFiles files).pythonModule? i.modulePath = some f ∧
          ((∀ n, ¬ i.Takes n) ∨ ∃ n, i.Takes n ∧ (ofFiles files).submodule? i n = none) := by
  rw [mem_targets_python hf, pythonTargets, absolute]
  exact mem_withPackage_names

/-! ### Dotted names of one file -/

theorem mem_dottedNames_of_pythonModule? {files : List Path} {dotted : String} {f : Path}
    (h : (ofFiles files).pythonModule? dotted = some f) : dotted ∈ dottedNames f := by
  obtain ⟨e, he, rfl⟩ := Option.map_eq_some_iff.mp h
  have hname : e.1 = dotted := by simpa using List.find?_some he
  obtain ⟨file, -, hfile⟩ := List.mem_flatMap.mp (List.mem_of_find?_eq_some he)
  obtain ⟨name, hn, rfl⟩ := List.mem_map.mp hfile
  exact hname ▸ hn

/-- The dotted names of some steps are endings of all steps. -/
theorem suffix_of_mem_dottedSuffixes {parts : List String} {depth : Nat} {name : String}
    (h : name ∈ dottedSuffixes depth parts) : name.toList <:+ (".".intercalate parts).toList := by
  induction parts generalizing depth with
  | nil => cases h
  | cons part parts ih =>
      rw [dottedSuffixes] at h
      split at h
      · cases h
      · rcases List.mem_cons.mp h with rfl | h
        · exact List.suffix_rfl
        · cases parts with
          | nil => cases h
          | cons next rest =>
              rw [String.intercalate_cons_cons, String.toList_append]
              exact (ih h).trans (List.suffix_append _ _)

/-- What follows the last dot of a text. -/
theorem takeWhile_reverse_dotted (front : List Char) {back : List Char} (h : '.' ∉ back) :
    (front ++ '.' :: back).reverse.takeWhile (· != '.') = back.reverse := by
  have plain : ∀ c ∈ back.reverse, (c != '.') = true := fun c hc =>
    bne_iff_ne.mpr fun e => h (e ▸ List.mem_reverse.mp hc)
  rw [List.reverse_append, List.reverse_cons, List.append_assoc, List.takeWhile_append_of_pos plain]
  simp

/-- Two names without a dot stand for the same module in `M` only if they are the same. -/
theorem eq_of_submodule? {files : List Path} {i : Import} {m n : String} {f : Path}
    (hm : (ofFiles files).submodule? i m = some f) (hn : (ofFiles files).submodule? i n = some f)
    (hmdot : '.' ∉ m.toList) (hndot : '.' ∉ n.toList) : m = n := by
  have dotted (name : String) : (i.modulePath ++ "." ++ name).toList =
      i.modulePath.toList ++ '.' :: name.toList := by simp
  -- both dotted names are endings of the steps to the file, so one is an ending of the other
  have last : ∀ {m n : String}, '.' ∉ m.toList → '.' ∉ n.toList →
      (i.modulePath ++ "." ++ m).toList <:+ (i.modulePath ++ "." ++ n).toList → m = n := by
    intro m n hm hn ⟨front, e⟩
    rw [dotted, dotted, ← List.append_assoc] at e
    have ends := congrArg (fun cs => cs.reverse.takeWhile (· != '.')) e
    simp only [takeWhile_reverse_dotted _ hm, takeWhile_reverse_dotted _ hn] at ends
    exact String.toList_injective (List.reverse_injective ends)
  rcases List.suffix_or_suffix_of_suffix
      (suffix_of_mem_dottedSuffixes (mem_dottedNames_of_pythonModule? hm))
      (suffix_of_mem_dottedSuffixes (mem_dottedNames_of_pythonModule? hn)) with h | h
  · exact last hmdot hndot h
  · exact (last hndot hmdot h).symm

/-! ### Names spelled like their module -/

/-- The file of a name that is spelled like the module is a target only as the file of the
module. -/
theorem mem_targets_namesake {files : List Path} (hf : Ascending files) {i : Import}
    (absolute : i.isRelative = false) (words : ∀ n ∈ i.importedNames, '.' ∉ n.toList)
    (hn : i.modulePath ∈ i.importedNames) {f : Path}
    (h : (ofFiles files).submodule? i i.modulePath = some f) :
    f ∈ (ofFiles files).targets .python i ↔
      (ofFiles files).pythonModule? i.modulePath = some f ∧
        ((∀ n, ¬ i.Takes n) ∨ ∃ n, i.Takes n ∧ (ofFiles files).submodule? i n = none) := by
  rw [mem_targets_absolute hf absolute, or_iff_right]
  rintro ⟨n, ⟨hmem, -, hne⟩, hsub⟩
  exact hne (eq_of_submodule? hsub h (words n hmem) (words _ hn))

/-- **Submodules.**  The file of a name that an absolute import takes out of its module is among the
targets, unless the name is spelled like the module; then it is only if the module itself leads to
that file too, and is not left out for other names that are all modules. -/
theorem mem_targets_submodule (outlines : List Outline) (policy : SelfLoops) (i : Import)
    (absolute : i.isRelative = false) :
    let r := ofFiles (Graph.ofOutlines outlines policy).nodes
    ∀ n ∈ i.importedNames, n ≠ "*" → ∀ f, r.submodule? i n = some f →
      (n ≠ i.modulePath → f ∈ r.targets .python i) ∧
        (n = i.modulePath → (∀ m ∈ i.importedNames, '.' ∉ m.toList) →
          (f ∈ r.targets .python i ↔ r.pythonModule? i.modulePath = some f ∧
            ((∀ m, ¬ i.Takes m) ∨ ∃ m, i.Takes m ∧ r.submodule? i m = none))) := by
  intro r n hn hstar f hf
  have ascending := (Graph.ofOutlines_proper outlines policy).ascending
  refine ⟨fun hne => ?_, ?_⟩
  · exact (mem_targets_absolute ascending absolute).mpr (Or.inl ⟨n, ⟨hn, hstar, hne⟩, hf⟩)
  · rintro rfl words
    exact mem_targets_namesake ascending absolute words hn hf

/-! ### A package with a module of its own name -/

theorem modules_of_sorted {files : List Path}
    (h : (files.filter isPythonFile).Pairwise fun p q => shallowLe p q = true) :
    (ofFiles files).modules = (files.filter isPythonFile).flatMap fun file =>
      (dottedNames file).map fun name => (name, file) := by
  rw [ofFiles, List.mergeSort_of_pairwise h]

/-- A package `utils` with the modules `helpers` and `utils`, and a file that imports both. -/
def packageSources : List SourceFile :=
  [⟨⟨"main.py"⟩, .python, "from utils import utils, helpers\n".toUTF8⟩,
    ⟨⟨"utils/__init__.py"⟩, .python, "".toUTF8⟩, ⟨⟨"utils/helpers.py"⟩, .python, "".toUTF8⟩,
    ⟨⟨"utils/utils.py"⟩, .python, "".toUTF8⟩]

def packageOutlines : List Outline :=
  packageSources.map fun source => (({} : Reader).read source).outline

/-- The import of the first file. -/
def packageImport : Import where
  modulePath := "utils"
  importedNames := ["utils", "helpers"]
  bindings := ["utils", "helpers"]
  isRelative := false
  resolvedBase := none
  kind := .static
  sourceFile := ⟨"main.py"⟩
  line := 1

theorem exists_packageImport :
    ∃ o ∈ packageOutlines, o.succeeded = true ∧ packageImport ∈ o.imports := by
  decide +kernel

theorem nodes_packageOutlines : (Graph.ofOutlines packageOutlines .suppress).nodes =
    [⟨"main.py"⟩, ⟨"utils/__init__.py"⟩, ⟨"utils/helpers.py"⟩, ⟨"utils/utils.py"⟩] := by
  have paths : packageOutlines.map (fun o => o.path.normalize) =
      packageSources.map fun source => source.path.normalize := by
    simp only [packageOutlines, List.map_map, Function.comp_def, Reader.path_read]
  rw [Graph.nodes_of_ascending (by rw [paths]; decide +kernel), paths]
  decide +kernel

theorem pythonModule?_packageOutlines :
    let r := ofFiles (Graph.ofOutlines packageOutlines .suppress).nodes
    r.pythonModule? "utils" = some ⟨"utils/__init__.py"⟩ ∧
      r.submodule? packageImport "helpers" = some ⟨"utils/helpers.py"⟩ ∧
      r.submodule? packageImport "utils" = some ⟨"utils/utils.py"⟩ := by
  simp only [submodule?, pythonModule?, nodes_packageOutlines]
  rw [modules_of_sorted (by decide +kernel)]
  decide +kernel

theorem mem_targets_submodule_package :
    let r := ofFiles (Graph.ofOutlines packageOutlines .suppress).nodes
    packageImport.isRelative = false ∧
      r.submodule? packageImport "helpers" = some ⟨"utils/helpers.py"⟩ ∧
      r.submodule? packageImport "utils" = some ⟨"utils/utils.py"⟩ ∧
      ⟨"utils/helpers.py"⟩ ∈ r.targets .python packageImport ∧
      (⟨"utils/utils.py"⟩ ∈ r.targets .python packageImport →
        r.pythonModule? "utils" = some ⟨"utils/utils.py"⟩) := by
  intro r
  obtain ⟨-, helpers, utils⟩ := pythonModule?_packageOutlines
  have names := mem_targets_submodule packageOutlines .suppress packageImport rfl
  refine ⟨rfl, helpers, utils,
    (names "helpers" (by decide) (by decide) _ helpers).1 (by decide), fun h => ?_⟩
  exact (((names "utils" (by decide) (by decide) _ utils).2 rfl (by decide)).mp h).1

/-- Both names are modules of the package, but the one that is spelled like the package is not a
target of the import. -/
theorem targets_miss_namesake :
    let r := ofFiles (Graph.ofOutlines packageOutlines .suppress).nodes
    (∃ o ∈ packageOutlines, o.succeeded = true ∧ packageImport ∈ o.imports) ∧
      packageImport.isRelative = false ∧ "utils" ∈ packageImport.importedNames ∧
      r.pythonModule? (packageImport.modulePath ++ "." ++ "utils") = some ⟨"utils/utils.py"⟩ ∧
      ⟨"utils/utils.py"⟩ ∉ r.targets .python packageImport := by
  intro r
  obtain ⟨package, -, utils⟩ := pythonModule?_packageOutlines
  refine ⟨exists_packageImport, rfl, by decide, utils, fun h => ?_⟩
  have ascending := (Graph.ofOutlines_proper packageOutlines .suppress).ascending
  have found := ((mem_targets_namesake ascending rfl (by decide) (by decide) utils).mp h).1
  exact absurd (Option.some.inj (package.symm.trans found)) (by decide)

end Resolver

end ArchReview

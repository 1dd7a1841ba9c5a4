import ArchReview.Proofs.Graph.Accounting
import ArchReview.Proofs.Graph.ModuleNames
import ArchReview.Proofs.Graph.Submodules
import Mathlib.Data.List.Flatten

/-!
# More files

A resolver with more files may find another file for an import than one with fewer: a shallower
module, a stub beside a package, a module for a name that was taken from the package before.  But
each single lookup that finds some file finds some file still (`Resolver.Grows`), and the package is
only left out of the targets for modules that stand in its place (`withPackage_ne_nil`).  So
every import that leads somewhere does so among more files (`Grows.targets_ne_nil`).

**Growth** (`unresolved_append`).  Adding files to a project leaves no import of its files
unresolved that was resolved before.
-/

namespace ArchReview

namespace Resolver

/-- Something is found if a name or the package was. -/
theorem withPackage_ne_nil {found : List (Option Path)} {package : Option Path} :
    withPackage found package ≠ [] ↔
      (∃ o ∈ found, o.isSome = true) ∨ package.isSome = true := by
  constructor
  · intro h
    obtain ⟨f, hf⟩ := List.exists_mem_of_ne_nil _ h
    rcases mem_withPackage hf with named | rfl
    · exact Or.inl ⟨some f, named, rfl⟩
    · exact Or.inr rfl
  · intro h none
    have nowhere : ∀ f, f ∉ withPackage found package := by simp [none]
    simp only [mem_withPackage_iff, not_or] at nowhere
    have missing : ∀ o ∈ found, o = Option.none := fun o ho => by
      cases o with
      | none => rfl
      | some f => exact absurd ho (nowhere f).1
    rcases h with ⟨o, ho, hs⟩ | hs
    · simp [missing o ho] at hs
    · -- no name was found, so the package is not left out
      obtain ⟨f, rfl⟩ := Option.isSome_iff_exists.mp hs
      refine (nowhere f).2 ⟨rfl, ?_⟩
      cases found with
      | nil => exact Or.inl rfl
      | cons o rest =>
          exact Or.inr ((missing o List.mem_cons_self) ▸ List.mem_cons_self)

/-- If more names are found, and the package if it was, then something is found if it was. -/
theorem withPackage_ne_nil_mono {names : List String} {find find' : String → Option Path}
    {package package' : Option Path}
    (hn : ∀ n, (find n).isSome = true → (find' n).isSome = true)
    (hp : package.isSome = true → package'.isSome = true)
    (h : withPackage (names.map find) package ≠ []) :
    withPackage (names.map find') package' ≠ [] := by
  rw [withPackage_ne_nil] at h ⊢
  rcases h with ⟨o, ho, found⟩ | found
  · obtain ⟨n, hmem, rfl⟩ := List.mem_map.mp ho
    exact Or.inl ⟨_, List.mem_map_of_mem hmem, hn n found⟩
  · exact Or.inr (hp found)

/-- Every lookup that succeeds in `r` succeeds in `s`, perhaps with another file. -/
structure Grows (r s : Resolver) : Prop where
  file? : ∀ path, (r.file? path).isSome = true → (s.file? path).isSome = true
  pythonModule? : ∀ dotted,
    (r.pythonModule? dotted).isSome = true → (s.pythonModule? dotted).isSome = true

theorem grows_ofFiles {files more : List Path} (h : files ⊆ more) :
    (ofFiles files).Grows (ofFiles more) where
  file? path := by
    simp only [Resolver.file?, List.find?_isSome]
    rintro ⟨f, hf, same⟩
    exact ⟨f, h hf, same⟩
  pythonModule? dotted := by
    simp only [Option.isSome_iff_ne_none, ne_eq, pythonModule?_eq_none_iff, not_forall, not_not]
    rintro ⟨f, hf⟩
    exact ⟨f, h hf.mem, hf.python, hf.answers⟩

namespace Grows

variable {r s : Resolver} (grows : r.Grows s)
include grows

theorem findSome? (paths : List Path) (h : (paths.findSome? r.file?).isSome = true) :
    (paths.findSome? s.file?).isSome = true := by
  rw [List.findSome?_isSome_iff] at h ⊢
  obtain ⟨p, hp, found⟩ := h
  exact ⟨p, hp, grows.file? p found⟩

theorem pythonFile? (base : Path) (h : (r.pythonFile? base).isSome = true) :
    (s.pythonFile? base).isSome = true :=
  grows.findSome? _ h

theorem scriptFile? (base : Path) (h : (r.scriptFile? base).isSome = true) :
    (s.scriptFile? base).isSome = true :=
  grows.findSome? _ h

theorem pythonTargets_ne_nil {i : Import} (h : r.pythonTargets i ≠ []) :
    s.pythonTargets i ≠ [] := by
  unfold pythonTargets at h ⊢
  dsimp only at h ⊢
  split
  · rename_i relative
    rw [if_pos relative] at h
    cases base : i.resolvedBase with
    | none => simp [base] at h
    | some b =>
        rw [base] at h
        exact withPackage_ne_nil_mono (fun n => grows.pythonFile? _) (grows.pythonFile? b) h
  · rename_i absolute
    rw [if_neg absolute] at h
    exact withPackage_ne_nil_mono (fun n => grows.pythonModule? _) (grows.pythonModule? _) h

theorem scriptTarget? {i : Import} (h : (r.scriptTarget? i).isSome = true) :
    (s.scriptTarget? i).isSome = true := by
  unfold Resolver.scriptTarget? at h ⊢
  split
  · rename_i relative
    rw [if_pos relative] at h
    cases base : i.resolvedBase with
    | none => simp [base] at h
    | some b =>
        rw [base] at h
        exact grows.scriptFile? b h
  · rename_i absolute
    rw [if_neg absolute] at h
    cases rest : aliasRest? i.modulePath with
    | none =>
        rw [rest] at h
        exact grows.scriptFile? _ h
    | some rest' =>
        rw [rest] at h
        simp only [Option.isSome_or, Bool.or_eq_true] at h ⊢
        exact h.imp (grows.scriptFile? _) (grows.scriptFile? _)

/-- **An import that leads somewhere leads somewhere among more files.** -/
theorem targets_ne_nil {language : Language} {i : Import} (h : r.targets language i ≠ []) :
    s.targets language i ≠ [] := by
  unfold targets at h ⊢
  rw [pathSet_ne_nil] at h ⊢
  cases language with
  | python => exact grows.pythonTargets_ne_nil h
  | javaScript | typeScript =>
      have found : (r.scriptTarget? i).isSome = true := by
        cases e : r.scriptTarget? i with
        | none => simp [e] at h
        | some f => rfl
      obtain ⟨f, hf⟩ := Option.isSome_iff_exists.mp (grows.scriptTarget? found)
      simp [hf]

end Grows

end Resolver

/-! ### Unresolved imports -/

/-- An import is left unresolved if it leads nowhere. -/
theorem Import.trace_snd (r : Resolver) (policy : SelfLoops) (source : Path) (language : Language)
    (i : Import) : (i.trace r policy source language).2 =
      if r.targets language i = [] then
        [⟨source, i.modulePath, i.line, i.unresolvedReason language⟩]
      else [] := by
  unfold Import.trace
  split
  · rename_i nowhere
    rw [if_pos nowhere]
  · rename_i somewhere
    rw [if_neg somewhere]

theorem Import.source_of_mem_trace {r : Resolver} {policy : SelfLoops} {source : Path}
    {language : Language} {i : Import} {u : UnresolvedImport}
    (h : u ∈ (i.trace r policy source language).2) : u.source = source := by
  rw [Import.trace_snd] at h
  split at h
  · rw [List.mem_singleton.mp h]
  · cases h

/-- What is left unresolved among more files was so before. -/
theorem Resolver.Grows.trace_sublist {r s : Resolver} (grows : r.Grows s) (policy : SelfLoops)
    (source : Path) (language : Language) (i : Import) :
    ((i.trace s policy source language).2).Sublist (i.trace r policy source language).2 := by
  rw [Import.trace_snd, Import.trace_snd]
  by_cases h : r.targets language i = []
  · rw [if_pos h]
    split
    · exact List.Sublist.refl _
    · exact List.nil_sublist _
  · rw [if_neg (grows.targets_ne_nil h)]
    exact List.nil_sublist _

namespace Graph

theorem nodes_subset_append (outlines added : List Outline) (policy : SelfLoops) :
    (ofOutlines outlines policy).nodes ⊆ (ofOutlines (outlines ++ added) policy).nodes := by
  intro p hp
  obtain ⟨o, ho, rfl⟩ := (mem_nodes_ofOutlines outlines policy).mp hp
  exact (mem_nodes_ofOutlines _ policy).mpr ⟨o, List.mem_append_left _ ho, rfl⟩

/-- **Growth.**  When files with other paths are added, the imports of the old files that are
unresolved were unresolved before, each entry as often at least; and an import of any kind that led
somewhere does so still. -/
theorem unresolved_append (outlines added : List Outline) (policy : SelfLoops)
    (apart : ∀ o ∈ outlines, ∀ a ∈ added, o.path.normalize ≠ a.path.normalize) :
    let before := ofOutlines outlines policy
    let after := ofOutlines (outlines ++ added) policy
    (after.unresolved.filter fun u => decide (u.source ∈ before.nodes)).Sublist
        before.unresolved ∧
      ∀ language i, (Resolver.ofFiles before.nodes).targets language i ≠ [] →
        (Resolver.ofFiles after.nodes).targets language i ≠ [] := by
  intro before after
  have grows := Resolver.grows_ofFiles (nodes_subset_append outlines added policy)
  refine ⟨?_, fun language i => grows.targets_ne_nil⟩
  have new : ((added.filter Outline.succeeded).flatMap fun o => o.imports.flatMap fun i =>
      (i.trace (Resolver.ofFiles after.nodes) policy o.path.normalize o.language).2).filter
        (fun u => decide (u.source ∈ before.nodes)) = [] := by
    refine List.filter_eq_nil_iff.mpr fun u hu old => ?_
    obtain ⟨a, ha, hu⟩ := List.mem_flatMap.mp hu
    obtain ⟨i, -, hu⟩ := List.mem_flatMap.mp hu
    obtain ⟨o, ho, e⟩ := (mem_nodes_ofOutlines outlines policy).mp (of_decide_eq_true old)
    exact apart o ho a (List.mem_of_mem_filter ha) (e.trans (Import.source_of_mem_trace hu))
  rw [unresolved_ofOutlines, unresolved_ofOutlines, List.filter_append, List.flatMap_append,
    List.filter_append, new, List.append_nil]
  refine List.filter_sublist.trans (List.Sublist.flatMap_right _ fun o _ => ?_)
  exact List.Sublist.flatMap_right _ fun i _ => grows.trace_sublist policy _ _ i

/-- Two modules are added to a package.  The import of `helpers` led to the file of the package, and
leads to the new module instead. -/
theorem unresolved_append_package :
    let old := Resolver.packageOutlines.take 2
    let new := Resolver.packageOutlines.drop 2
    let before := ofOutlines old .suppress
    let after := ofOutlines (old ++ new) .suppress
    (∀ o ∈ old, ∀ a ∈ new, o.path.normalize ≠ a.path.normalize) ∧
      ⟨"utils/__init__.py"⟩ ∈
        (Resolver.ofFiles before.nodes).targets .python Resolver.packageImport ∧
      (Resolver.ofFiles after.nodes).targets .python Resolver.packageImport ≠ [] ∧
      (after.unresolved.filter fun u => decide (u.source ∈ before.nodes)).Sublist
        before.unresolved := by
  intro old new before after
  have apart : ∀ o ∈ old, ∀ a ∈ new, o.path.normalize ≠ a.path.normalize := by decide +kernel
  have nodes : before.nodes = [⟨"main.py"⟩, ⟨"utils/__init__.py"⟩] := by
    rw [nodes_of_ascending (by decide +kernel)]
    decide +kernel
  have found : ⟨"utils/__init__.py"⟩ ∈
      (Resolver.ofFiles before.nodes).targets .python Resolver.packageImport := by
    rw [nodes, Resolver.mem_targets_absolute (by decide +kernel) rfl]
    simp only [Resolver.submodule?, Resolver.pythonModule?]
    rw [Resolver.modules_of_sorted (by decide +kernel)]
    refine Or.inr ⟨by decide +kernel, Or.inr ⟨"helpers", ?_, by decide +kernel⟩⟩
    exact ⟨by decide, by decide, by decide⟩
  have growth := unresolved_append old new .suppress apart
  exact ⟨apart, found, growth.2 .python _ (List.ne_nil_of_mem found), growth.1⟩

end Graph

end ArchReview

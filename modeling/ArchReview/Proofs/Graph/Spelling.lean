import ArchReview.Graph.Basic
import ArchReview.Proofs.Outline.Reading
import ArchReview.Proofs.Path.Join

/-!
# Graphs and the spelling of paths

A relative import is placed when its file is read, from the path of the file as it is spelled; the
graph knows files by their normal paths.  Where an import is placed depends on the normal form of
its directory only (`Family.relativeBase_congr`), so a file gives the same imports under every
spelling of its path (`Reader.read_respelled`), also by way of other directories, and a graph is
built from these and from normal paths (`Graph.ofOutlines_respelled`).

**Spelling** (`Graph.ofOutlines_normalized`).  Files that are read under their normal paths have
the graph that they have under the paths as given.
-/

namespace ArchReview

/-! ### Relative imports -/

theorem Python.normalize_foldl_join {d e : Path} (h : d.normalize = e.normalize) (r : Path)
    (steps : List Unit) :
    (steps.foldl (fun p _ => p.join r) d).normalize =
      (steps.foldl (fun p _ => p.join r) e).normalize := by
  induction steps generalizing d e with
  | nil => exact h
  | cons _ steps ih => exact ih (Path.normalize_join_congr h r)

/-- Where a relative import points depends on the normal form of the directory only. -/
theorem Family.relativeBase_congr (family : Family) {d e : Path} (h : d.normalize = e.normalize)
    (module : String) : family.relativeBase d module = family.relativeBase e module := by
  cases family with
  | script => exact Path.normalize_join_congr h _
  | python =>
      -- the dots of the module go up from the directory, its names down again
      have up := Python.normalize_foldl_join h ⟨".."⟩
      unfold relativeBase Python.relativeBase
      dsimp only
      split
      · exact up _
      · exact Path.normalize_join_congr (up _) _

/-! ### Outlines -/

/-- Outlines of one file under two spellings of its path, as far as a graph can tell. -/
structure Outline.Respelled (a b : Outline) : Prop where
  path : a.path.normalize = b.path.normalize
  succeeded : a.succeeded = b.succeeded
  language : a.language = b.language
  imports : List.Forall₂ (fun i j : Import => { i with sourceFile := j.sourceFile } = j)
    a.imports b.imports

theorem Facts.outline_respelled {p q : Path} (h : p.Respelled q) (facts : Facts)
    (language : Language) (lineCount : Nat) (family : Family) :
    (facts.outline p language lineCount family.relativeBase).Respelled
      (facts.outline q language lineCount family.relativeBase) where
  path := h.normalize_eq
  succeeded := rfl
  language := rfl
  imports := by
    refine List.forall₂_map_left_iff.mpr (List.forall₂_map_right_iff.mpr ?_)
    refine List.forall₂_same.mpr fun c _ => ?_
    rw [ImportClause.place, ImportClause.place, family.relativeBase_congr h.directory_eq]

namespace Reader

/-- **A file gives the same imports under every spelling of its path.** -/
theorem read_respelled (r : Reader) {f g : SourceFile} (hpath : f.path.Respelled g.path)
    (hlanguage : f.language = g.language) (hcontent : f.content = g.content) :
    (r.read f).outline.Respelled (r.read g).outline := by
  have hextension := hpath.extension?_eq
  rcases r.read_cases f with ⟨fault, hf, e⟩ | ⟨o, ho, e⟩
  · rcases r.read_cases g with ⟨fault', -, e'⟩ | ⟨o, ho, -⟩
    · -- the reasons may differ, but a failed outline holds no imports
      rw [e, e']
      exact ⟨hpath.normalize_eq, rfl, hlanguage, .nil⟩
    · obtain ⟨_, _, _, -, hread⟩ :=
        r.exists_facts_of_outline hextension.symm hlanguage.symm hcontent.symm ho
      rw [hf] at hread
      cases hread
  · obtain ⟨facts, lineCount, family, rfl, hg⟩ :=
      r.exists_facts_of_outline hextension hlanguage hcontent ho
    rw [e, read_of_outline hg]
    exact facts.outline_respelled hpath _ _ _

end Reader

/-! ### Graphs -/

section Lists

variable {α β γ : Type} {R : α → β → Prop} {l : List α} {l' : List β}

theorem map_eq_of_forall₂ {f : α → γ} {g : β → γ} (h : List.Forall₂ R l l')
    (hfg : ∀ a b, R a b → f a = g b) : l.map f = l'.map g := by
  rw [← List.forall₂_eq_eq_eq, List.forall₂_map_left_iff, List.forall₂_map_right_iff]
  exact h.imp hfg

theorem flatMap_filter_eq_of_forall₂ {p : α → Bool} {q : β → Bool} {f : α → List γ}
    {g : β → List γ} (h : List.Forall₂ R l l') (hpq : ∀ a b, R a b → p a = q b)
    (hfg : ∀ a b, R a b → f a = g b) : (l.filter p).flatMap f = (l'.filter q).flatMap g := by
  have kept : List.Forall₂ R (l.filter p) (l'.filter q) :=
    List.rel_filter (fun a b hab => Bool.eq_iff_iff.mp (hpq a b hab)) h
  rw [List.flatMap_def, List.flatMap_def, map_eq_of_forall₂ kept hfg]

end Lists

/-- Imports are traced alike, wherever they say that they stand. -/
theorem Outline.Respelled.traces_eq {a b : Outline} (h : a.Respelled b) (r : Resolver)
    (policy : SelfLoops) :
    a.imports.map (Import.trace r policy a.path.normalize a.language) =
      b.imports.map (Import.trace r policy b.path.normalize b.language) := by
  rw [h.path, h.language]
  refine map_eq_of_forall₂ h.imports fun i j hij => ?_
  rw [← hij]
  rfl

namespace Graph

theorem ofOutlines_respelled {outlines others : List Outline}
    (h : List.Forall₂ Outline.Respelled outlines others) (policy : SelfLoops) :
    ofOutlines outlines policy = ofOutlines others policy := by
  have paths : outlines.map (fun o => o.path.normalize) = others.map fun o => o.path.normalize :=
    map_eq_of_forall₂ h fun _ _ ho => ho.path
  have traces := fun r : Resolver =>
    flatMap_filter_eq_of_forall₂ h (fun _ _ ho => ho.succeeded) fun _ _ ho => ho.traces_eq r policy
  simp only [ofOutlines, paths, traces]

end Graph

/-- The file under its normal path. -/
def SourceFile.normalized (f : SourceFile) : SourceFile := { f with path := f.path.normalize }

namespace Graph

/-- **Spelling.**  Files read under their normal paths have the graph that they have under the paths
as given. -/
theorem ofOutlines_normalized (r : Reader) (policy : SelfLoops) (files : List SourceFile)
    (h : ∀ f ∈ files, f.path.fileName?.isSome = true) :
    ofOutlines (files.map fun f => (r.read f.normalized).outline) policy =
      ofOutlines (files.map fun f => (r.read f).outline) policy := by
  refine (ofOutlines_respelled ?_ policy).symm
  refine List.forall₂_map_left_iff.mpr (List.forall₂_map_right_iff.mpr ?_)
  refine List.forall₂_same.mpr fun f hf => ?_
  exact r.read_respelled (Path.respelled_normalize (h f hf)) rfl rfl

/-- A file above the directory in which all paths start, which imports itself by its name. -/
def climbingFile : SourceFile :=
  ⟨⟨"../x/../src/./b.py"⟩, .python, "from ..src import b\n".toUTF8⟩

theorem ofOutlines_normalized_climbing :
    climbingFile.path.fileName?.isSome = true ∧ climbingFile.normalized.path.text = "../src/b.py" ∧
      ofOutlines [(({} : Reader).read climbingFile.normalized).outline] .report =
        ofOutlines [(({} : Reader).read climbingFile).outline] .report ∧
      (ofOutlines [(({} : Reader).read climbingFile).outline] .report).links =
        [⟨⟨"../src/b.py"⟩, ⟨"../src/b.py"⟩, "..src", 1⟩] :=
  ⟨by decide +kernel, by decide +kernel,
    ofOutlines_normalized {} .report [climbingFile] (by decide +kernel),
    by decide +kernel⟩

end Graph

end ArchReview

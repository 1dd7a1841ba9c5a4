import ArchReview.Cache.Basic
import ArchReview.Proofs.Outline.Reading

/-!
# A cache does not show

Runs that share a cache read files through it one after the other (`Cache.readRuns`).  An entry
`Keeps` what a reader made of a file: it has the path of this file, the digest of its content and
the outline that the reader gave it.  A run only adds entries that keep what was read in it
(`mem_readAll`), also where they take the place of older ones, so every entry of the cache was made
from a file that was read before (`MadeFrom`).  A file that is found in the cache has the path and
the digest of such a file, so it is read as that one was (`MadeFrom.lookup_same`).

**Transparency** (`readRuns_transparent`).  If digests tell the contents of all files apart and a
path goes with one language, every run gives the outlines and the texts that reading without a cache
gives.
-/

namespace ArchReview

/-- An entry keeps what a reader made of a file that it could read. -/
def CacheEntry.Keeps (e : CacheEntry) (r : Reader) (f : SourceFile) : Prop :=
  e.path.same f.path = true ∧ e.digest = ArchReview.digest f.content ∧
    e.outline = (r.read f).outline ∧ (r.read f).outline.succeeded = true

namespace Cache

/-- What runs that share a cache read, run by run. -/
def readRuns (r : Reader) : Cache → List (List SourceFile) → List (List SourceOutline)
  | _, []          => []
  | c, run :: runs => (c.readAll r run).1 :: readRuns r (c.readAll r run).2 runs

/-- Every entry was made from one of the given files, and this one could be read. -/
def MadeFrom (r : Reader) (files : List SourceFile) (c : Cache) : Prop :=
  ∀ e ∈ c.entries, ∃ f ∈ files, e.Keeps r f

/-- What is found in a cache is the outline of an entry for this path and this digest. -/
theorem exists_entry_of_find? {c : Cache} {path : Path} {key : String} {o : Outline}
    (h : c.find? path key = some o) :
    ∃ e ∈ c.entries, e.path.same path = true ∧ e.digest = key ∧ e.outline = o := by
  unfold find? at h
  split at h
  · rename_i e he
    split at h
    · rename_i hkey
      refine ⟨e, List.mem_of_find?_eq_some he, ?_, beq_iff_eq.mp hkey, Option.some.inj h⟩
      simpa using List.find?_some he
    · cases h
  · cases h

/-- An entry after remembering an outline is an old one, or it holds this outline for the path. -/
theorem mem_put {c : Cache} {path : Path} {key : String} {o : Outline} {e : CacheEntry}
    (h : e ∈ (c.put path key o).entries) :
    e ∈ c.entries ∨ e.path.same path = true ∧ e.digest = key ∧ e.outline = o := by
  unfold put at h
  split at h
  · obtain ⟨old, hold, rfl⟩ := List.mem_map.mp h
    by_cases hpath : old.path.same path = true
    · rw [if_pos hpath]
      exact Or.inr ⟨hpath, rfl, rfl⟩
    · rw [if_neg hpath]
      exact Or.inl hold
  · rcases List.mem_append.mp h with h | h
    · exact Or.inl h
    · rw [List.mem_singleton.mp h]
      exact Or.inr ⟨Path.same_refl _, rfl, rfl⟩

/-- An entry after remembering a looked-up file is an old one, or it keeps what was read. -/
theorem mem_remember {before c : Cache} {r : Reader} {f : SourceFile} {e : CacheEntry}
    (h : e ∈ (c.remember (before.lookup r f)).entries) : e ∈ c.entries ∨ e.Keeps r f := by
  unfold lookup at h
  dsimp only at h
  split at h
  · exact Or.inl h
  · unfold remember at h
    dsimp only at h
    split at h
    · rename_i hok
      rw [r.path_read f] at h
      exact (mem_put h).imp_right fun ⟨hpath, hkey, ho⟩ => ⟨hpath, hkey, ho, hok⟩
    · exact Or.inl h

/-- **An entry after a run is an old one, or it keeps what was read of a file of the run.** -/
theorem mem_readAll {c : Cache} {r : Reader} {run : List SourceFile} {e : CacheEntry}
    (h : e ∈ (c.readAll r run).2.entries) : e ∈ c.entries ∨ ∃ f ∈ run, e.Keeps r f := by
  -- the cache that files are looked up in stays fixed while the one they are put into grows
  suffices grown : ∀ now : Cache, e ∈ ((run.map (c.lookup r)).foldl remember now).entries →
      e ∈ now.entries ∨ ∃ f ∈ run, e.Keeps r f from grown c h
  clear h
  induction run with
  | nil => exact fun _ h => Or.inl h
  | cons f run ih =>
      intro now h
      rw [List.map_cons, List.foldl_cons] at h
      rcases ih _ h with h | ⟨g, hg, hkeeps⟩
      · exact (mem_remember h).imp_right fun hkeeps => ⟨f, List.mem_cons_self, hkeeps⟩
      · exact Or.inr ⟨g, List.mem_cons_of_mem _ hg, hkeeps⟩

namespace MadeFrom

variable {r : Reader} {files : List SourceFile} {c : Cache}

theorem empty : MadeFrom r files Cache.empty := fun _ he => absurd he List.not_mem_nil

/-- A run keeps where entries come from. -/
theorem readAll (h : c.MadeFrom r files) {run : List SourceFile} (hrun : ∀ f ∈ run, f ∈ files) :
    (c.readAll r run).2.MadeFrom r files := by
  intro e he
  rcases mem_readAll he with he | ⟨f, hf, hkeeps⟩
  · exact h e he
  · exact ⟨f, hrun f hf, hkeeps⟩

variable
  (hlanguage : ∀ f ∈ files, ∀ g ∈ files, f.path.same g.path = true → f.language = g.language)
  (hdigest : ∀ f ∈ files, ∀ g ∈ files, digest f.content = digest g.content → f.content = g.content)
include hlanguage hdigest

/-- A file looked up in a cache is read as without it. -/
theorem lookup_same (h : c.MadeFrom r files) {f : SourceFile} (hf : f ∈ files) :
    (c.lookup r f).1.Same (r.read f) := by
  unfold lookup
  dsimp only
  split
  · rename_i o ho
    obtain ⟨e, he, hpath, hkey, rfl⟩ := exists_entry_of_find? ho
    -- the entry was made from `g`, which is `f` but for the spelling of its path
    obtain ⟨g, hg, hgpath, hgkey, hgo, hok⟩ := h e he
    have hsame : g.path.same f.path = true := by
      rw [Path.same_iff] at *
      exact hgpath.symm.trans hpath
    have hcontent : g.content = f.content := hdigest g hg f hf (hgkey.symm.trans hkey)
    refine ⟨?_, (r.text_read f).symm⟩
    rw [hgo]
    exact (r.read_same hsame (hlanguage g hg f hf hsame) hcontent hok).outline
  · exact .refl _

theorem readAll_same (h : c.MadeFrom r files) {run : List SourceFile}
    (hrun : ∀ f ∈ run, f ∈ files) :
    List.Forall₂ SourceOutline.Same (c.readAll r run).1 (run.map r.read) := by
  rw [Cache.readAll, List.map_map]
  refine List.forall₂_map_left_iff.mpr (List.forall₂_map_right_iff.mpr ?_)
  exact List.forall₂_same.mpr fun f hf => h.lookup_same hlanguage hdigest (hrun f hf)

theorem readRuns_same {runs : List (List SourceFile)} (hruns : ∀ run ∈ runs, ∀ f ∈ run, f ∈ files)
    (h : c.MadeFrom r files) :
    List.Forall₂ (List.Forall₂ SourceOutline.Same) (c.readRuns r runs)
      (runs.map fun run => run.map r.read) := by
  induction runs generalizing c with
  | nil => exact .nil
  | cons run runs ih =>
      have hrun := hruns run List.mem_cons_self
      exact .cons (h.readAll_same hlanguage hdigest hrun)
        (ih (fun run hr => hruns run (List.mem_cons_of_mem _ hr)) (h.readAll hrun))

end MadeFrom

/-- **Transparency.**  Runs that share a cache, empty at first, give the outlines and texts that
reading without a cache gives, but for the spelling of paths. -/
theorem readRuns_transparent (r : Reader) (runs : List (List SourceFile))
    (hlanguage : ∀ f ∈ runs.flatten, ∀ g ∈ runs.flatten,
      f.path.same g.path = true → f.language = g.language)
    (hdigest : ∀ f ∈ runs.flatten, ∀ g ∈ runs.flatten,
      digest f.content = digest g.content → f.content = g.content) :
    List.Forall₂ (List.Forall₂ SourceOutline.Same) (Cache.empty.readRuns r runs)
      (runs.map fun run => run.map r.read) :=
  MadeFrom.empty.readRuns_same hlanguage hdigest fun run hrun _ hf =>
    List.mem_flatten.mpr ⟨run, hrun, hf⟩

/-- Two contents of one file, read in turns and under several spellings of its path. -/
def draftRuns : List (List SourceFile) :=
  [[⟨⟨"src/a.py"⟩, .python, "import os\n".toUTF8⟩, ⟨⟨"src//a.py"⟩, .python, "if (\n".toUTF8⟩],
   [⟨⟨"src/./a.py"⟩, .python, "import os\n".toUTF8⟩],
   [⟨⟨"src/a.py"⟩, .python, "if (\n".toUTF8⟩, ⟨⟨"src/a.py/"⟩, .python, "import os\n".toUTF8⟩]]

theorem mem_draftRuns {f : SourceFile} (h : f ∈ draftRuns.flatten) : f.language = .python ∧
    (f.content = "import os\n".toUTF8 ∨ f.content = "if (\n".toUTF8) := by
  simp only [draftRuns, List.flatten_cons, List.flatten_nil, List.append_nil, List.mem_append,
    List.mem_cons, List.not_mem_nil, or_false] at h
  rcases h with (rfl | rfl) | rfl | rfl | rfl <;> simp

theorem readRuns_transparent_draftRuns :
    (∀ f ∈ draftRuns.flatten, ∀ g ∈ draftRuns.flatten,
      f.path.same g.path = true → f.language = g.language) ∧
    (∀ f ∈ draftRuns.flatten, ∀ g ∈ draftRuns.flatten,
      digest f.content = digest g.content → f.content = g.content) ∧
    List.Forall₂ (List.Forall₂ SourceOutline.Same) (Cache.empty.readRuns {} draftRuns)
      (draftRuns.map fun run => run.map ({} : Reader).read) := by
  have hlanguage : ∀ f ∈ draftRuns.flatten, ∀ g ∈ draftRuns.flatten,
      f.path.same g.path = true → f.language = g.language := fun f hf g hg _ =>
    (mem_draftRuns hf).1.trans (mem_draftRuns hg).1.symm
  have apart : digest "import os\n".toUTF8 ≠ digest "if (\n".toUTF8 := by decide +kernel
  have hdigest : ∀ f ∈ draftRuns.flatten, ∀ g ∈ draftRuns.flatten,
      digest f.content = digest g.content → f.content = g.content := by
    intro f hf g hg e
    rcases (mem_draftRuns hf).2 with ef | ef <;> rcases (mem_draftRuns hg).2 with eg | eg <;>
      rw [ef, eg] at e ⊢
    · exact absurd e apart
    · exact absurd e apart.symm
  exact ⟨hlanguage, hdigest, readRuns_transparent {} draftRuns hlanguage hdigest⟩

end Cache

end ArchReview

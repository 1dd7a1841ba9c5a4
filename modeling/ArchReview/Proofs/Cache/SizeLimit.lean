import ArchReview.Proofs.Cache.Transparency
import Mathlib.Data.List.Induction

/-!
# Size limits and the cache

Runs that share a cache may each have a reader of their own (`Cache.afterRuns`).  A reader refuses
files above its limit (`Reader.read_oversized`), but a file that is found in the cache is not read,
and nobody looks at its size.  What is found was read in an earlier run, under the limit of that
run (`exists_read_of_mem_afterRuns`).

**Size limit** (`readAll_oversized`).  After any runs, a file above the limit is refused for its
size exactly if the cache does not know it.  A file that is known was within the limit of an
earlier run, so nothing is let through as long as limits are never lowered.  Once one is lowered,
something may be (`readAll_lets_oversized_through`).
-/

namespace ArchReview

/-! ### The limit of a reader -/

namespace Reader

variable {r : Reader} {f : SourceFile}

/-- A file above the limit is refused for its size, whatever it holds. -/
theorem read_oversized (h : r.maxBytes < f.content.size) :
    r.read f = ⟨Outline.failed f.path f.language
      (ReadFault.tooLarge f.content.size r.maxBytes).message none, decode f.content⟩ := by
  have refused : r.outline f (decode f.content) =
      .error (.tooLarge f.content.size r.maxBytes) := if_pos h
  rcases r.read_cases f with ⟨fault, e, hread⟩ | ⟨o, e, -⟩
  · rw [refused] at e
    cases e
    exact hread
  · rw [refused] at e
    cases e

/-- What could be read is within the limit. -/
theorem size_le_of_succeeded (h : (r.read f).outline.succeeded = true) :
    f.content.size ≤ r.maxBytes := by
  by_contra hlt
  rw [read_oversized (Nat.lt_of_not_le hlt)] at h
  cases h

end Reader

namespace Cache

/-! ### Runs with several readers -/

/-- The cache after runs that share it, empty at first, each with a reader of its own. -/
def afterRuns (runs : List (Reader × List SourceFile)) : Cache :=
  runs.foldl (fun c run => (c.readAll run.1 run.2).2) Cache.empty

/-- Every entry keeps what was read in one of the runs. -/
theorem exists_read_of_mem_afterRuns {runs : List (Reader × List SourceFile)} {e : CacheEntry}
    (h : e ∈ (afterRuns runs).entries) : ∃ run ∈ runs, ∃ g ∈ run.2, e.Keeps run.1 g := by
  induction runs using List.reverseRecOn with
  | nil => cases h
  | append_singleton runs last ih =>
      rw [afterRuns, List.foldl_append] at h
      rcases mem_readAll h with h | ⟨g, hg, hkeeps⟩
      · obtain ⟨run, hrun, hread⟩ := ih h
        exact ⟨run, List.mem_append_left _ hrun, hread⟩
      · exact ⟨last, by simp, g, hg, hkeeps⟩

/-! ### Files above the limit -/

/-- What is given for a file above the limit of a reader, after some runs. -/
structure Oversized (runs : List (Reader × List SourceFile)) (r : Reader) (f : SourceFile)
    (given : SourceOutline) : Prop where
  /-- It is refused exactly if the cache does not know it. -/
  refused_iff : given.outline.succeeded = false ↔
    (afterRuns runs).find? f.path (digest f.content) = none
  /-- If it is refused, then for its size, as without a cache. -/
  refusal : given.outline.succeeded = false → given = r.read f ∧
    given.outline = Outline.failed f.path f.language
      (ReadFault.tooLarge f.content.size r.maxBytes).message none
  /-- If it is not, an earlier run has read a file of its path and digest within its own limit. -/
  bypass : given.outline.succeeded = true → ∃ run ∈ runs, ∃ g ∈ run.2,
    g.path.same f.path = true ∧ digest g.content = digest f.content ∧
      g.content.size ≤ run.1.maxBytes ∧ given.outline = (run.1.read g).outline
  /-- It is refused if no earlier limit was above this one, and digests tell contents apart. -/
  never_lowered : (∀ run ∈ runs, run.1.maxBytes ≤ r.maxBytes) →
    (∀ run ∈ runs, ∀ g ∈ run.2, digest g.content = digest f.content → g.content = f.content) →
      given.outline.succeeded = false

/-- A file above the limit that is looked up in the cache. -/
theorem lookup_oversized (runs : List (Reader × List SourceFile)) {r : Reader} {f : SourceFile}
    (h : r.maxBytes < f.content.size) :
    Oversized runs r f ((afterRuns runs).lookup r f).1 := by
  unfold lookup
  dsimp only
  split
  · rename_i o ho
    obtain ⟨e, he, hpath, hkey, rfl⟩ := exists_entry_of_find? ho
    obtain ⟨run, hrun, g, hg, hgpath, hgkey, hgo, hok⟩ := exists_read_of_mem_afterRuns he
    have hsize : g.content.size ≤ run.1.maxBytes := Reader.size_le_of_succeeded hok
    have succeeded : e.outline.succeeded = true := hgo ▸ hok
    refine ⟨by simp [succeeded, ho], fun fails => ?_, fun _ => ?_, fun hlimits hcontents => ?_⟩
    · rw [succeeded] at fails
      cases fails
    · refine ⟨run, hrun, g, hg, ?_, hgkey.symm.trans hkey, hsize, hgo⟩
      rw [Path.same_iff] at hgpath hpath ⊢
      exact hgpath.symm.trans hpath
    · -- the file itself would have been within an earlier limit, hence within this one
      rw [hcontents run hrun g hg (hgkey.symm.trans hkey)] at hsize
      exact absurd (Nat.le_trans hsize (hlimits run hrun)) (Nat.not_le.mpr h)
  · rename_i unknown
    have fails : (r.read f).outline.succeeded = false := by rw [Reader.read_oversized h]; rfl
    refine ⟨iff_of_true fails unknown, fun _ => ⟨rfl, by rw [Reader.read_oversized h]⟩, ?_,
      fun _ _ => fails⟩
    intro succeeded
    rw [fails] at succeeded
    cases succeeded

/-- **Size limit.**  After any runs, a file above the limit of a reader is refused for its size,
unless an earlier run has left it in the cache. -/
theorem readAll_oversized (runs : List (Reader × List SourceFile)) (r : Reader)
    (files : List SourceFile) :
    List.Forall₂ (fun f given => r.maxBytes < f.content.size → Oversized runs r f given) files
      ((afterRuns runs).readAll r files).1 := by
  rw [Cache.readAll, List.map_map]
  refine List.forall₂_map_right_iff.mpr (List.forall₂_same.mpr fun f _ h => ?_)
  exact lookup_oversized runs h

/-- A file of ten bytes. -/
def tenBytes : SourceFile := ⟨⟨"a.py"⟩, .python, "import os\n".toUTF8⟩

/-- Read before under no limit, a file of ten bytes is let through where nine are allowed. -/
theorem readAll_lets_oversized_through :
    let limited : Reader := { maxBytes := 9 }
    limited.maxBytes < tenBytes.content.size ∧
      (limited.read tenBytes).outline.succeeded = false ∧
      (((afterRuns [({}, [tenBytes])]).readAll limited [tenBytes]).1.map fun given =>
        given.outline.succeeded) = [true] := by
  decide +kernel

/-- A second content of the same path is refused. -/
theorem readAll_oversized_tenBytes :
    let limited : Reader := { maxBytes := 9 }
    let elevenBytes : SourceFile := ⟨⟨"a.py"⟩, .python, "import sys\n".toUTF8⟩
    limited.maxBytes < elevenBytes.content.size ∧
      ∃ given, ((afterRuns [({}, [tenBytes])]).readAll limited [elevenBytes]).1 = [given] ∧
        Oversized [({}, [tenBytes])] limited elevenBytes given := by
  intro limited elevenBytes
  have large : limited.maxBytes < elevenBytes.content.size := by decide +kernel
  have outcome := readAll_oversized [({}, [tenBytes])] limited [elevenBytes]
  cases outcome with
  | cons given rest =>
    cases rest
    exact ⟨large, _, rfl, given large⟩

end Cache

end ArchReview

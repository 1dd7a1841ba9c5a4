import ArchReview.Proofs.Graph.Spelling
import ArchReview.Proofs.Layer.Segments
import ArchReview.Rule.Layering
import Mathlib.Data.List.Find

/-!
# Layers and the spelling of paths

The rules of the layers know the targets of imports by their normal paths, but the layer of a file
itself is told from its path as it is spelled.  This is the only way in which the spelling counts
(`Layering.run_normalized`): under normal paths, every file is charged with what is wrong in the
layer of its normal path.

So the findings are those of the normal paths if every file has the layer of its normal path.  It
has, when paths differ from their normal forms by `./` in front only and every pattern *floats*:
it starts with `**/` and goes on with a name (`LayerMap.classify_dotted`).  The standard patterns
do.  A pattern that is anchored at the start of the path does not, and then a spelling may hide
what is wrong with a file (`Layering.run_hides_dotted`).
-/

namespace ArchReview

/-! ### Patterns that float -/

namespace Glob

/-- The pattern starts with `**/` and goes on with a name. -/
def floats : List Char → Bool
  | '*' :: '*' :: '/' :: c :: _ => c != '*' && c != '.'
  | _                           => false

/-- What starts with a name is not found at a `.`, but perhaps behind the next separator. -/
theorem exists_of_matchChars_dot {c : Char} {p s : List Char} (hstar : c ≠ '*') (hdot : c ≠ '.')
    (h : matchChars (c :: p) ('.' :: '/' :: s) = true) :
    ∃ start ∈ s :: segmentStarts s, matchChars (c :: p) start = true := by
  -- before the first wildcard, the pattern starts with `c`
  have apart : ∀ {q lead tail}, cut? ('*' :: q) (c :: p) = some (lead, tail) →
      Text.stripStart? lead ('.' :: '/' :: s) = none := by
    intro q lead tail hcut
    have front : '*' ∉ [c] := by simpa using Ne.symm hstar
    obtain ⟨⟨lead, tail⟩, -, e⟩ := Option.map_eq_some_iff.mp ((cut?_append p front).symm.trans hcut)
    cases e
    simp [Text.stripStart?, hdot]
  rw [matchChars] at h
  split at h
  · rename_i hcut
    rw [apart hcut] at h
    cases h
  · rename_i hmany
    split at h
    · rename_i hcut
      rw [apart hcut] at h
      cases h
    · rename_i hone
      refine ⟨c :: p, ?_, ?_⟩
      · simpa [mem_segmentStarts, List.suffix_cons_iff, hdot] using h
      · rw [matchChars]
        split
        · simp_all
        · split <;> simp_all

theorem matchChars_dot {pattern : List Char} (h : floats pattern = true) (s : List Char) :
    matchChars pattern ('.' :: '/' :: s) = matchChars pattern s := by
  unfold floats at h
  split at h
  · rename_i c p
    obtain ⟨hstar, hdot⟩ : c ≠ '*' ∧ c ≠ '.' := by simpa using h
    have starts : segmentStarts ('.' :: '/' :: s) = s :: segmentStarts s := rfl
    rw [Bool.eq_iff_iff, matchChars_anything (List.cons_ne_nil c p),
      matchChars_anything (List.cons_ne_nil c p), starts]
    constructor
    · rintro ⟨start, hstart, hmatch⟩
      rcases List.mem_cons.mp hstart with rfl | hstart
      · exact exists_of_matchChars_dot hstar hdot hmatch
      · exact ⟨start, hstart, hmatch⟩
    · rintro ⟨start, hstart, hmatch⟩
      exact ⟨start, List.mem_cons_of_mem _ hstart, hmatch⟩
  · cases h

theorem matchChars_dots {pattern : List Char} (h : floats pattern = true) (s : List Char) :
    ∀ n, matchChars pattern ((List.replicate n ['.', '/']).flatten ++ s) = matchChars pattern s
  | 0     => rfl
  | n + 1 => by
      rw [List.replicate_succ, List.flatten_cons, List.append_assoc]
      exact (matchChars_dot h _).trans (matchChars_dots h s n)

/-- A floating pattern does not see the `./` in front of a path. -/
theorem accepts_dotted {pattern : String} (h : floats (slashed pattern) = true) {n : Nat}
    {path normal : String}
    (e : path.toList = (List.replicate n ['.', '/']).flatten ++ normal.toList) :
    accepts pattern path = accepts pattern normal := by
  have dots : slashed path = (List.replicate n ['.', '/']).flatten ++ slashed normal := by
    simp [slashed, e]
  rw [accepts, accepts, dots, matchChars_dots h]

end Glob

/-- All patterns float. -/
def LayerMap.Floating (m : LayerMap) : Prop :=
  ∀ e ∈ m.entries, ∀ pattern ∈ e.2, Glob.floats (Glob.slashed pattern) = true

instance (m : LayerMap) : Decidable m.Floating :=
  inferInstanceAs (Decidable (∀ e ∈ m.entries, ∀ pattern ∈ e.2, _))

/-- The normal form with some `./` in front. -/
def Path.Dotted (p : Path) : Prop :=
  ∃ n, p.text.toList = (List.replicate n ['.', '/']).flatten ++ p.normalize.text.toList

theorem LayerMap.classify_dotted {m : LayerMap} (h : m.Floating) {p : Path} (hp : p.Dotted) :
    m.classify p = m.classify p.normalize := by
  obtain ⟨n, hn⟩ := hp
  have fits : ∀ e ∈ m.entries, (e.2.any fun pattern => Glob.accepts pattern p.text) =
      e.2.any fun pattern => Glob.accepts pattern p.normalize.text := by
    intro e he
    rw [Bool.eq_iff_iff, List.any_eq_true, List.any_eq_true]
    refine exists_congr fun pattern => and_congr_right fun hpattern => ?_
    rw [Glob.accepts_dotted (h e he pattern hpattern) hn]
  rw [classify, classify, List.find?_congr fits]

/-! ### Findings in a file -/

/-- The violation at the normal path. -/
def Violation.normalized (v : Violation) : Violation := { v with path := v.path.normalize }

/-- `g` is what `f` is under its normal path. -/
structure SourceOutline.Normalized (f g : SourceOutline) : Prop where
  outline : f.outline.Respelled g.outline
  path : g.outline.path = f.outline.path.normalize
  text : g.text = f.text

theorem Reader.read_normalized (r : Reader) {f : SourceFile}
    (h : f.path.fileName?.isSome = true) : (r.read f).Normalized (r.read f.normalized) where
  outline := r.read_respelled (Path.respelled_normalize h) rfl rfl
  path := by
    rw [path_read, path_read]
    rfl
  text := by
    rw [text_read, text_read]
    rfl

namespace Layering

section InFile

variable {f g : SourceOutline} (h : f.Normalized g)
include h

theorem databaseAccess_normalized :
    databaseAccess g = (databaseAccess f).map Violation.normalized := by
  simp [databaseAccess, h.text, h.path, List.map_filterMap, Function.comp_def,
    Violation.normalized]

theorem businessLogic_normalized (markers : List String) :
    businessLogic markers g = (businessLogic markers f).map Violation.normalized := by
  unfold businessLogic
  rw [h.text, h.path]
  dsimp only
  split <;> rfl

theorem layerImports_normalized {p q : Project} (hgraph : q.graph = p.graph)
    (hsettings : q.settings = p.settings) (layer : Layer) :
    layerImports q layer g.outline = (layerImports p layer f.outline).map Violation.normalized := by
  simp [layerImports, hgraph, hsettings, h.path, Path.normalize_normalize, Violation.normalized]

theorem inLayer_normalized {p q : Project} (hgraph : q.graph = p.graph)
    (hsettings : q.settings = p.settings) (layer : Layer) :
    inLayer q layer g = (inLayer p layer f).map Violation.normalized := by
  unfold inLayer
  rw [List.map_append, layerImports_normalized h hgraph hsettings]
  congr 1
  cases layer with
  | presentation => exact databaseAccess_normalized h
  | data =>
      rw [hsettings]
      exact businessLogic_normalized h _
  | business => rfl

end InFile

theorem inFile_eq (p : Project) (f : SourceOutline) :
    inFile p f = (p.settings.layers.classify f.outline.path).elim [] fun l => inLayer p l f := by
  rw [inFile]
  cases p.settings.layers.classify f.outline.path <;> rfl

/-- What is wrong with a file in the layer of its normal path. -/
def inNormalLayer (p : Project) (f : SourceOutline) : List Violation :=
  (p.settings.layers.classify f.outline.path.normalize).elim [] fun l => inLayer p l f

theorem inFile_normalized {f g : SourceOutline} (h : f.Normalized g) {p q : Project}
    (hgraph : q.graph = p.graph) (hsettings : q.settings = p.settings) :
    inFile q g = (inNormalLayer p f).map Violation.normalized := by
  rw [inFile_eq, inNormalLayer, hsettings, h.path]
  cases p.settings.layers.classify f.outline.path.normalize with
  | none => rfl
  | some layer => exact inLayer_normalized h hgraph hsettings layer

/-! ### Findings in a project -/

theorem inEachFile_inNormalLayer {p : Project} (h : ∀ f ∈ p.parsed,
    p.settings.layers.classify f.outline.path =
      p.settings.layers.classify f.outline.path.normalize) :
    p.inEachFile (inNormalLayer p) = p.inEachFile (inFile p) := by
  refine List.flatMap_congr fun f hf => ?_
  rw [inNormalLayer, inFile_eq, h f hf]

/-- **Spelling of paths.**  Under normal paths every file is charged with what is wrong in the layer
of its normal path.  These are the findings under the paths as given, if every file has the layer of
its normal path; as it has, if all patterns float and the paths have but `./` in front.  If the
pattern of the business markers is refused, it is under both spellings. -/
theorem run_normalized (settings : Settings) {files others : List SourceOutline}
    (h : List.Forall₂ SourceOutline.Normalized files others) :
    let p := Project.ofFiles files settings
    let q := Project.ofFiles others settings
    (refusal? settings = none →
        analyzer.run q = .ok ((p.inEachFile (inNormalLayer p)).map Violation.normalized)) ∧
      (∀ reason, refusal? settings = some reason →
        analyzer.run p = .error reason ∧ analyzer.run q = .error reason) ∧
      ((∀ f ∈ p.parsed, settings.layers.classify f.outline.path =
          settings.layers.classify f.outline.path.normalize) →
        analyzer.run q = (analyzer.run p).map (List.map Violation.normalized)) ∧
      (settings.layers.Floating → (∀ f ∈ p.parsed, f.outline.path.Dotted) →
        analyzer.run q = (analyzer.run p).map (List.map Violation.normalized)) := by
  intro p q
  have hgraph : q.graph = p.graph := by
    refine (Graph.ofOutlines_respelled ?_ _).symm
    refine List.forall₂_map_left_iff.mpr (List.forall₂_map_right_iff.mpr ?_)
    exact h.imp fun _ _ hf => hf.outline
  have run (p' : Project) (hsettings : p'.settings = settings) : analyzer.run p' =
      (refusal? settings).elim (.ok (p'.inEachFile (inFile p'))) .error := by
    rw [← hsettings]
    exact p'.inEachFileUnless_eq _ _
  have found : q.inEachFile (inFile q) = (p.inEachFile (inNormalLayer p)).map Violation.normalized := by
    rw [Project.inEachFile, Project.inEachFile, List.map_flatMap]
    exact (flatMap_filter_eq_of_forall₂ h (fun _ _ hf => hf.outline.succeeded) fun _ _ hf =>
      (inFile_normalized hf hgraph rfl).symm).symm
  have alike (hlayers : ∀ f ∈ p.parsed, settings.layers.classify f.outline.path =
      settings.layers.classify f.outline.path.normalize) :
      analyzer.run q = (analyzer.run p).map (List.map Violation.normalized) := by
    rw [run p rfl, run q rfl, found, inEachFile_inNormalLayer hlayers]
    cases refusal? settings <;> rfl
  refine ⟨fun hbuilt => ?_, fun reason hrefused => ⟨?_, ?_⟩, alike, fun hfloating hdotted =>
    alike fun f hf => LayerMap.classify_dotted hfloating (hdotted f hf)⟩
  · rw [run q rfl, hbuilt, found]
    rfl
  · rw [run p rfl, hrefused]
    rfl
  · rw [run q rfl, hrefused]
    rfl

/-- A view that talks to the database, with `./` in front of its path. -/
def dottedView : SourceFile :=
  ⟨⟨"./src/views/page.py"⟩, .python, "rows = db.query(\"users\")\n".toUTF8⟩

theorem normalized_dottedView : List.Forall₂ SourceOutline.Normalized
    [({} : Reader).read dottedView] [({} : Reader).read dottedView.normalized] :=
  .cons (({} : Reader).read_normalized (by decide +kernel)) .nil

/-- With the standard patterns the view is found out under both spellings. -/
theorem run_normalized_dottedView :
    let p := Project.ofFiles [({} : Reader).read dottedView] {}
    let q := Project.ofFiles [({} : Reader).read dottedView.normalized] {}
    p.settings.layers.Floating ∧ dottedView.path.Dotted ∧
      analyzer.run q = (analyzer.run p).map (List.map Violation.normalized) ∧
      (analyzer.run p).map (List.map Violation.rule) = .ok ["LAYER-001"] := by
  intro p q
  have floating : LayerMap.standard.Floating := by decide +kernel
  have dotted : dottedView.path.Dotted := ⟨1, by decide +kernel⟩
  refine ⟨floating, dotted, ?_, by decide +kernel⟩
  refine (run_normalized {} normalized_dottedView).2.2.2 floating fun f hf => ?_
  have only : f ∈ [({} : Reader).read dottedView] := List.mem_of_mem_filter hf
  rw [List.mem_singleton.mp only, Reader.path_read]
  exact dotted

/-- With a pattern that is anchored at the start of the path, `./` hides the view. -/
theorem run_hides_dotted :
    let anchored : Settings := { layers := ⟨[(.presentation, ["src/views/**"])]⟩ }
    let p := Project.ofFiles [({} : Reader).read dottedView] anchored
    let q := Project.ofFiles [({} : Reader).read dottedView.normalized] anchored
    analyzer.run p = .ok [] ∧
      (analyzer.run q).map (List.map Violation.rule) = .ok ["LAYER-001"] := by
  decide +kernel

end Layering

end ArchReview

import ArchReview.Outline.Reader
import ArchReview.Proofs.Path.Order
import Mathlib.Data.List.Forall2

/-!
# Reading a file under two spellings of its path

A file is read, or it is refused with a reason (`Reader.read_cases`); in both cases its outline has
the path of the file (`Reader.path_read`).

Outlines are the `Same` when they agree but for the spelling of paths: of the file and of the places
that its imports point to.  What a reader makes of a text depends on the components of the path
only, so a file that can be read gives the same outline under every spelling of its path
(`Reader.read_same`).  A file that cannot be read may not: the reason can quote the path.
-/

namespace ArchReview

/-! ### Parts of a path -/

namespace Path

variable {p q : Path} (h : p.same q = true)
include h

theorem directory_congr : p.directory = q.directory := by
  rw [directory, directory, same_iff.mp h]

theorem extension?_congr : p.extension? = q.extension? := by
  rw [extension?, extension?, fileName?, fileName?, same_iff.mp h]

end Path

/-! ### The same outline -/

/-- The same import, perhaps with paths spelled differently. -/
structure Import.Same (i j : Import) : Prop where
  sourceFile : i.sourceFile.same j.sourceFile = true
  resolvedBase : i.resolvedBase.map Path.components = j.resolvedBase.map Path.components
  others : { i with sourceFile := j.sourceFile, resolvedBase := j.resolvedBase } = j

/-- The same outline, perhaps with paths spelled differently. -/
structure Outline.Same (a b : Outline) : Prop where
  path : a.path.same b.path = true
  imports : List.Forall₂ Import.Same a.imports b.imports
  others : { a with path := b.path, imports := b.imports } = b

/-- The same outline of the same text. -/
structure SourceOutline.Same (f g : SourceOutline) : Prop where
  outline : f.outline.Same g.outline
  text : f.text = g.text

theorem Import.Same.refl (i : Import) : i.Same i := ⟨Path.same_refl _, rfl, rfl⟩

theorem Outline.Same.refl (o : Outline) : o.Same o :=
  ⟨Path.same_refl _, List.forall₂_same.mpr fun i _ => .refl i, rfl⟩

theorem SourceOutline.Same.refl (f : SourceOutline) : f.Same f := ⟨.refl _, rfl⟩

/-- An import is placed alike under two spellings of its file. -/
theorem ImportClause.place_same {p q : Path} (h : p.same q = true) (base : Path → String → Path)
    (c : ImportClause) : (c.place p base).Same (c.place q base) where
  sourceFile := h
  resolvedBase := by rw [place, place, Path.directory_congr h]
  others := by rw [place, place, Path.directory_congr h]

theorem Facts.outline_same {p q : Path} (h : p.same q = true) (facts : Facts)
    (language : Language) (lineCount : Nat) (base : Path → String → Path) :
    (facts.outline p language lineCount base).Same (facts.outline q language lineCount base) where
  path := h
  imports := by
    refine List.forall₂_map_left_iff.mpr (List.forall₂_map_right_iff.mpr ?_)
    exact List.forall₂_same.mpr fun c _ => c.place_same h base
  others := rfl

/-! ### The families of languages -/

/-- Facts that are joined tree by tree: each tree is read in some scope, or not at all. -/
structure Facts.Joins {κ σ : Type} (facts : σ → Tree κ → Facts)
    (factsAll : (Tree κ → Option σ) → List (Tree κ) → Facts) : Prop where
  nil (place : Tree κ → Option σ) : factsAll place [] = {}
  cons (place : Tree κ → Option σ) (t : Tree κ) (ts : List (Tree κ)) :
    factsAll place (t :: ts) = ((place t).elim {} fun s => facts s t) ++ factsAll place ts

theorem Python.joins_facts : Facts.Joins facts factsAll := ⟨fun _ => rfl, fun _ _ _ => rfl⟩

theorem Script.joins_facts : Facts.Joins facts factsAll := ⟨fun _ => rfl, fun _ _ _ => rfl⟩

namespace Family

/-- The syntax trees of texts in the languages of a family. -/
abbrev Forest : Family → Type
  | python => Python.Forest
  | script => Script.Forest

/-- The syntax trees of a text, or the line of its first fault. -/
def parse : (family : Family) → Path → String → Except Nat family.Forest
  | python, _, text    => Python.parse text.toList
  | script, file, text => Script.parse (Script.dialectOf file) text.toList

/-- What syntax trees say. -/
def facts : (family : Family) → family.Forest → Facts
  | python => Python.moduleFacts
  | script => Script.scriptFacts

/-- Where a relative import points, seen from a directory, in the languages of a family. -/
def relativeBase : Family → Path → String → Path
  | python => Python.relativeBase
  | script => Script.relativeBase

/-- The outline of a file whose text has the given syntax trees. -/
def outlineOf (family : Family) (file : Path) (language : Language) (text : String)
    (forest : family.Forest) : Outline :=
  (family.facts forest).outline file language (Text.lineCount text) family.relativeBase

/-- **The outline of a text** is that of its syntax trees. -/
theorem outline_eq (family : Family) (file : Path) (language : Language) (text : String) :
    family.outline file language text =
      (family.parse file text).map (family.outlineOf file language text) := by
  cases family with
  | python =>
      rw [outline, Python.outline, parse]
      cases Python.parse text.toList <;> rfl
  | script =>
      rw [outline, Script.outline, parse]
      cases Script.parse (Script.dialectOf file) text.toList <;> rfl

theorem outline_of_parse {family : Family} {file : Path} {text : String} {forest : family.Forest}
    (h : family.parse file text = .ok forest) (language : Language) :
    family.outline file language text = .ok (family.outlineOf file language text forest) := by
  rw [outline_eq, h]
  rfl

theorem exists_parse_of_outline {family : Family} {file : Path} {language : Language}
    {text : String} {o : Outline} (h : family.outline file language text = .ok o) :
    ∃ forest, family.parse file text = .ok forest ∧
      o = family.outlineOf file language text forest := by
  rw [outline_eq] at h
  cases hparse : family.parse file text with
  | error line =>
      rw [hparse] at h
      cases h
  | ok forest =>
      rw [hparse] at h
      cases h
      exact ⟨forest, rfl, rfl⟩

/-- Only the extension of a path decides how a text is parsed. -/
theorem parse_congr (family : Family) {p q : Path} (h : p.extension? = q.extension?)
    (text : String) : family.parse p text = family.parse q text := by
  cases family with
  | python => rfl
  | script => rw [parse, parse, Script.dialectOf, Script.dialectOf, h]

/-- The outline of a text is made of facts that the extension of the path decides. -/
theorem outline_cases (family : Family) (path : Path) (language : Language) (text : String) :
    (∃ line, ∀ q : Path, path.extension? = q.extension? →
      family.outline q language text = .error line) ∨
      ∃ facts : Facts, ∀ q : Path, path.extension? = q.extension? →
        family.outline q language text =
          .ok (facts.outline q language (Text.lineCount text) family.relativeBase) := by
  cases e : family.parse path text with
  | error line =>
      refine Or.inl ⟨line, fun q h => ?_⟩
      rw [outline_eq, ← family.parse_congr h, e]
      rfl
  | ok forest =>
      refine Or.inr ⟨family.facts forest, fun q h => ?_⟩
      rw [family.parse_congr h] at e
      exact outline_of_parse e language

end Family

/-- What a check finds true of an answer holds of an answer that is there. -/
theorem exists_ok_of_any {ε α : Type} {p : α → Prop} [DecidablePred p] {answer : Except ε α}
    (h : answer.toOption.any (fun a => decide (p a)) = true) : ∃ a, answer = .ok a ∧ p a := by
  cases answer with
  | error e => cases h
  | ok a => exact ⟨a, rfl, of_decide_eq_true h⟩

theorem Family.path_of_outline {family : Family} {path : Path} {language : Language}
    {text : String} {o : Outline} (h : family.outline path language text = .ok o) :
    o.path = path := by
  obtain ⟨forest, -, rfl⟩ := exists_parse_of_outline h
  rfl

/-! ### Readers -/

namespace Reader

/-- A file that is not too large is read by the grammar of its family. -/
theorem outline_eq_ok_iff {r : Reader} {file : SourceFile} {text : String} {o : Outline} :
    r.outline file text = .ok o ↔ file.content.size ≤ r.maxBytes ∧
      ∃ family, r.familyFor? file = some family ∧
        family.outline file.path file.language text = .ok o := by
  unfold outline
  split
  · rename_i large
    simp [Nat.not_le.mpr large]
  · rename_i small
    cases r.familyFor? file with
    | none => simp
    | some family =>
        cases e : family.outline file.path file.language text <;> simp [e, Nat.not_lt.mp small]

/-- A file is refused, or it is read. -/
theorem read_cases (r : Reader) (file : SourceFile) :
    (∃ fault : ReadFault, r.outline file (decode file.content) = .error fault ∧
      r.read file = ⟨Outline.failed file.path file.language fault.message fault.line?,
        decode file.content⟩) ∨
      ∃ o, r.outline file (decode file.content) = .ok o ∧
        r.read file = ⟨o, decode file.content⟩ := by
  unfold read
  dsimp only
  cases r.outline file (decode file.content) with
  | error fault => exact Or.inl ⟨fault, rfl, rfl⟩
  | ok o => exact Or.inr ⟨o, rfl, rfl⟩

theorem text_read (r : Reader) (file : SourceFile) : (r.read file).text = decode file.content := by
  rcases r.read_cases file with ⟨_, -, e⟩ | ⟨_, -, e⟩ <;> rw [e]

/-- The outline of a file has the path of the file, whether it could be read or not. -/
theorem path_read (r : Reader) (file : SourceFile) :
    (r.read file).outline.path = file.path := by
  rcases r.read_cases file with ⟨fault, -, e⟩ | ⟨o, ho, e⟩
  · rw [e]
    rfl
  · obtain ⟨-, family, -, ho⟩ := outline_eq_ok_iff.mp ho
    rw [e]
    exact Family.path_of_outline ho

theorem familyFor?_congr (r : Reader) {f g : SourceFile}
    (hextension : f.path.extension? = g.path.extension?) (hlanguage : f.language = g.language) :
    r.familyFor? f = r.familyFor? g := by
  rw [familyFor?, familyFor?, family?, family?, hextension, hlanguage]

theorem read_of_outline {r : Reader} {file : SourceFile} {o : Outline}
    (h : r.outline file (decode file.content) = .ok o) :
    r.read file = ⟨o, decode file.content⟩ := by
  rw [read, h]

/-- What is read from a file is read from every file with its extension, its language and its
content. -/
theorem exists_facts_of_outline (r : Reader) {f g : SourceFile}
    (hextension : f.path.extension? = g.path.extension?) (hlanguage : f.language = g.language)
    (hcontent : f.content = g.content) {o : Outline}
    (h : r.outline f (decode f.content) = .ok o) :
    ∃ (facts : Facts) (lineCount : Nat) (family : Family),
      o = facts.outline f.path f.language lineCount family.relativeBase ∧
        r.outline g (decode g.content) =
          .ok (facts.outline g.path f.language lineCount family.relativeBase) := by
  obtain ⟨hsize, family, hfamily, ho⟩ := outline_eq_ok_iff.mp h
  rcases family.outline_cases f.path f.language (decode f.content) with ⟨line, e⟩ | ⟨facts, e⟩
  · rw [e f.path rfl] at ho
    cases ho
  · rw [e f.path rfl] at ho
    refine ⟨facts, _, family, (Except.ok.inj ho).symm, ?_⟩
    rw [← hcontent, outline_eq_ok_iff, ← hcontent, ← hlanguage,
      ← familyFor?_congr r hextension hlanguage]
    exact ⟨hsize, family, hfamily, e g.path hextension⟩

/-- **A file that can be read gives the same outline under every spelling of its path.** -/
theorem read_same (r : Reader) {f g : SourceFile} (hpath : f.path.same g.path = true)
    (hlanguage : f.language = g.language) (hcontent : f.content = g.content)
    (hok : (r.read f).outline.succeeded = true) : (r.read f).Same (r.read g) := by
  rcases r.read_cases f with ⟨fault, -, e⟩ | ⟨o, ho, e⟩
  · rw [e] at hok
    cases hok
  · obtain ⟨facts, lineCount, family, rfl, hg⟩ :=
      r.exists_facts_of_outline (Path.extension?_congr hpath) hlanguage hcontent ho
    rw [e, read_of_outline hg, hcontent]
    exact ⟨facts.outline_same hpath _ _ _, rfl⟩

end Reader

end ArchReview

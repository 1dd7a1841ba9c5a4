import ArchReview.Outline.Reader
import ArchReview.Proofs.Grammar.PythonRules
import ArchReview.Proofs.Grammar.ScriptRules
import ArchReview.Proofs.Outline.Reading
import ArchReview.Proofs.Tree.Lines
import ArchReview.Proofs.Tree.Subtrees

/-!
# Lines that an outline records

What a walk records of a tree lies on the lines of that tree, and what it records of a part on the
lines of the part.  Lines nest as the parts of a tree do, so a method lies within the lines of its
class.  `Facts.Within` says this of the facts of a tree: one lemma for each record that a tree can
leave, and an induction over the parts (`Python.facts_within`, `Script.facts_within`).

All that the walks need of the syntax trees is that they spell the text (`Family.Spells`), as those
that the grammars read do (`Family.spells_of_parse`).

**Spans** (`Family.outline_spanned`).  Every line in the outline of a text is a line of the text,
definitions do not end before they start, and methods lie within their class.
-/

namespace ArchReview

/-! ### Records on some lines -/

/-- A function on the lines from `lo` to `hi`. -/
structure FunctionDef.Within (lo hi : Nat) (f : FunctionDef) : Prop where
  starts : lo ≤ f.startLine
  ordered : f.startLine ≤ f.endLine
  ends : f.endLine ≤ hi

/-- A class on the lines from `lo` to `hi`, with its methods on the lines of the class. -/
structure ClassDef.Within (lo hi : Nat) (c : ClassDef) : Prop where
  starts : lo ≤ c.startLine
  ordered : c.startLine ≤ c.endLine
  ends : c.endLine ≤ hi
  methods : ∀ m ∈ c.methods, m.Within c.startLine c.endLine

/-- Facts that are recorded on the lines from `lo` to `hi`. -/
structure Facts.Within (lo hi : Nat) (f : Facts) : Prop where
  imports : ∀ i ∈ f.imports, lo ≤ i.line ∧ i.line ≤ hi
  classes : ∀ c ∈ f.classes, c.Within lo hi
  functions : ∀ g ∈ f.functions, g.Within lo hi
  methods : ∀ m ∈ f.methods, m.Within lo hi
  chains : ∀ c ∈ f.chains, lo ≤ c.line ∧ c.line ≤ hi
  instantiations : ∀ i ∈ f.instantiations, lo ≤ i.line ∧ i.line ≤ hi
  numbers : ∀ n ∈ f.numbers, lo ≤ n.line ∧ n.line ≤ hi
  globalWrites : ∀ w ∈ f.globalWrites, lo ≤ w.line ∧ w.line ≤ hi

/-- All the lines in an outline are lines of its text: definitions do not end before they start, and
methods lie within their class. -/
structure Outline.Spanned (o : Outline) : Prop where
  imports : ∀ i ∈ o.imports, 1 ≤ i.line ∧ i.line ≤ o.lineCount
  classes : ∀ c ∈ o.classes, c.Within 1 o.lineCount
  functions : ∀ f ∈ o.functions, f.Within 1 o.lineCount
  chains : ∀ c ∈ o.chains, 1 ≤ c.line ∧ c.line ≤ o.lineCount
  instantiations : ∀ i ∈ o.instantiations, 1 ≤ i.line ∧ i.line ≤ o.lineCount
  numbers : ∀ n ∈ o.numbers, 1 ≤ n.line ∧ n.line ≤ o.lineCount
  globalWrites : ∀ w ∈ o.globalWrites, 1 ≤ w.line ∧ w.line ≤ o.lineCount

section Widen

variable {lo hi lo' hi' : Nat} (hlo : lo' ≤ lo) (hhi : hi ≤ hi')
include hlo hhi

theorem line_widen {line : Nat} (h : lo ≤ line ∧ line ≤ hi) : lo' ≤ line ∧ line ≤ hi' :=
  ⟨Nat.le_trans hlo h.1, Nat.le_trans h.2 hhi⟩

theorem FunctionDef.Within.widen {f : FunctionDef} (h : f.Within lo hi) : f.Within lo' hi' :=
  ⟨Nat.le_trans hlo h.starts, h.ordered, Nat.le_trans h.ends hhi⟩

theorem ClassDef.Within.widen {c : ClassDef} (h : c.Within lo hi) : c.Within lo' hi' :=
  ⟨Nat.le_trans hlo h.starts, h.ordered, Nat.le_trans h.ends hhi, h.methods⟩

theorem Facts.Within.widen {f : Facts} (h : f.Within lo hi) : f.Within lo' hi' where
  imports i hi := line_widen hlo hhi (h.imports i hi)
  classes c hc := (h.classes c hc).widen hlo hhi
  functions g hg := (h.functions g hg).widen hlo hhi
  methods m hm := (h.methods m hm).widen hlo hhi
  chains c hc := line_widen hlo hhi (h.chains c hc)
  instantiations i hi := line_widen hlo hhi (h.instantiations i hi)
  numbers n hn := line_widen hlo hhi (h.numbers n hn)
  globalWrites w hw := line_widen hlo hhi (h.globalWrites w hw)

end Widen

namespace Facts.Within

variable {lo hi : Nat}

theorem empty : Within lo hi {} := by
  constructor <;> exact fun _ h => absurd h List.not_mem_nil

theorem append {a b : Facts} (ha : a.Within lo hi) (hb : b.Within lo hi) :
    (a ++ b).Within lo hi where
  imports := List.forall_mem_append.mpr ⟨ha.imports, hb.imports⟩
  classes := List.forall_mem_append.mpr ⟨ha.classes, hb.classes⟩
  functions := List.forall_mem_append.mpr ⟨ha.functions, hb.functions⟩
  methods := List.forall_mem_append.mpr ⟨ha.methods, hb.methods⟩
  chains := List.forall_mem_append.mpr ⟨ha.chains, hb.chains⟩
  instantiations := List.forall_mem_append.mpr ⟨ha.instantiations, hb.instantiations⟩
  numbers := List.forall_mem_append.mpr ⟨ha.numbers, hb.numbers⟩
  globalWrites := List.forall_mem_append.mpr ⟨ha.globalWrites, hb.globalWrites⟩

/-- A class takes the methods that were recorded inside it. -/
theorem record {f : Facts} (h : f.Within lo hi) {c : ClassDef} (hc : c.Within lo hi) :
    Within lo hi { f with classes := f.classes ++ [c], methods := [] } where
  imports := h.imports
  classes := List.forall_mem_append.mpr ⟨h.classes, List.forall_mem_singleton.mpr hc⟩
  functions := h.functions
  methods := fun _ hm => absurd hm List.not_mem_nil
  chains := h.chains
  instantiations := h.instantiations
  numbers := h.numbers
  globalWrites := h.globalWrites

/-- A part that is read in some scope or not at all. -/
theorem optional {σ : Type} {lo' hi' : Nat} (hlo : lo ≤ lo') (hhi : hi' ≤ hi) {read : σ → Facts}
    (h : ∀ scope, (read scope).Within lo' hi') (scope : Option σ) :
    (scope.elim {} read).Within lo hi := by
  cases scope with
  | none => exact .empty
  | some scope => exact (h scope).widen hlo hhi

/-- Trees whose facts stand on their own lines. -/
theorem joined {κ σ : Type} {facts : σ → Tree κ → Facts}
    {factsAll : (Tree κ → Option σ) → List (Tree κ) → Facts} (hjoins : Joins facts factsAll)
    (place : Tree κ → Option σ) {ts : List (Tree κ)} (hlines : ∀ t ∈ ts, t.Within lo hi)
    (hfacts : ∀ t ∈ ts, ∀ scope, (facts scope t).Within t.firstLine t.lastLine) :
    (factsAll place ts).Within lo hi := by
  induction ts with
  | nil =>
      rw [hjoins.nil]
      exact .empty
  | cons t ts ih =>
      obtain ⟨⟨hlo, hhi⟩, hlines⟩ := List.forall_mem_cons.mp hlines
      obtain ⟨ht, hts⟩ := List.forall_mem_cons.mp hfacts
      rw [hjoins.cons]
      exact .append (.optional hlo hhi ht (place t)) (ih hlines hts)

/-- The parts of a tree with its leaves in order. -/
theorem parts {κ σ : Type} {facts : σ → Tree κ → Facts}
    {factsAll : (Tree κ → Option σ) → List (Tree κ) → Facts} (hjoins : Joins facts factsAll)
    (place : Tree κ → Option σ) {t : Tree κ} (h : t.InOrder)
    (hfacts : ∀ part ∈ t.children, part.InOrder → ∀ scope,
      (facts scope part).Within part.firstLine part.lastLine) :
    (factsAll place t.children).Within t.firstLine t.lastLine :=
  joined hjoins place (fun _ hp => h.within_of_mem_children hp) fun part hp =>
    hfacts part hp (h.of_mem_children hp)

/-- The outline of facts on the lines of a text. -/
theorem spanned {f : Facts} {lineCount : Nat} (h : f.Within 1 lineCount) (file : Path)
    (language : Language) (base : Path → String → Path) :
    (f.outline file language lineCount base).Spanned where
  imports i hi := by
    obtain ⟨clause, hclause, rfl⟩ := List.mem_map.mp hi
    exact h.imports clause hclause
  classes := h.classes
  functions := h.functions
  chains := h.chains
  instantiations := h.instantiations
  numbers := h.numbers
  globalWrites := h.globalWrites

end Facts.Within

theorem ClassDef.addMethods_eq (c : ClassDef) (ms : List FunctionDef) :
    (c.addMethods ms).startLine = c.startLine ∧ (c.addMethods ms).endLine = c.endLine ∧
      (c.addMethods ms).methods = c.methods ++ ms := by
  induction ms generalizing c with
  | nil => simp [addMethods]
  | cons m ms ih =>
      obtain ⟨h₁, h₂, h₃⟩ := ih (c.addMethod m)
      rw [addMethods, List.foldl_cons]
      exact ⟨h₁, h₂, h₃.trans (List.append_assoc _ _ _)⟩

/-- A class takes the methods that lie on its own lines. -/
theorem ClassDef.within_addMethods {c : ClassDef} {lo hi : Nat} (hstart : c.startLine = lo)
    (hend : c.endLine = hi) (hempty : c.methods = []) (hle : lo ≤ hi) {ms : List FunctionDef}
    (hms : ∀ m ∈ ms, m.Within lo hi) : (c.addMethods ms).Within lo hi := by
  obtain ⟨h₁, h₂, h₃⟩ := c.addMethods_eq ms
  subst hstart hend
  refine ⟨Nat.le_of_eq h₁.symm, ?_, Nat.le_of_eq h₂, ?_⟩
  · rwa [h₁, h₂]
  · rwa [h₁, h₂, h₃, hempty]

/-! ### Python -/

namespace Python

variable {t : Tree}

theorem line_of_mem_importClauses {i : ImportClause} (h : i ∈ importClauses t) :
    i.line = t.firstLine := by
  obtain ⟨part, -, h⟩ := List.mem_filterMap.mp h
  obtain ⟨⟨module, binding⟩, -, h⟩ := Option.bind_eq_some_iff.mp h
  dsimp only at h
  split at h
  · cases h
  · exact (Option.some.inj h) ▸ rfl

variable (h : t.InOrder)
include h

theorem functionRecord_within (scope : Scope) :
    (functionRecord scope t).Within t.firstLine t.lastLine :=
  ⟨Nat.le_refl _, h.firstLine_le_lastLine, Nat.le_refl _⟩

theorem functionFacts_within (scope : Scope) :
    (functionFacts scope t).Within t.firstLine t.lastLine := by
  unfold functionFacts
  dsimp only
  split
  · constructor <;> simp [functionRecord_within h]
  · split
    · constructor <;> simp [functionRecord_within h]
    · exact .empty

theorem callFacts_within : (callFacts t).Within t.firstLine t.lastLine := by
  unfold callFacts
  split
  · split
    · constructor <;> simp [h.firstLine_le_lastLine]
    · exact .empty
  · exact .empty

theorem ifFacts_within : (ifFacts t).Within t.firstLine t.lastLine := by
  unfold ifFacts
  dsimp only
  split
  · exact .empty
  · constructor <;> simp [Chain.ofTests, h.firstLine_le_lastLine]

theorem matchFacts_within : (matchFacts t).Within t.firstLine t.lastLine := by
  unfold matchFacts
  dsimp only
  split
  · exact .empty
  · constructor <;> simp [h.firstLine_le_lastLine]

theorem globalFacts_within (scope : Scope) :
    (globalFacts scope t).Within t.firstLine t.lastLine := by
  unfold globalFacts
  split
  · exact .empty
  · refine { Facts.Within.empty with globalWrites := fun w hw => ?_ }
    obtain ⟨name, -, rfl⟩ := List.mem_map.mp hw
    exact ⟨Nat.le_refl _, h.firstLine_le_lastLine⟩

/-- What a tree says by itself stands on its own lines. -/
theorem ownFacts_within (scope : Scope) : (ownFacts scope t).Within t.firstLine t.lastLine := by
  have hlines := h.firstLine_le_lastLine
  unfold ownFacts
  split
  · refine { Facts.Within.empty with imports := fun i hi => ?_ }
    rw [line_of_mem_importClauses hi]
    exact ⟨Nat.le_refl _, hlines⟩
  · constructor <;> simp [fromClause, hlines]
  · exact functionFacts_within h scope
  · constructor <;> simp
  · constructor <;> simp [hlines]
  · constructor <;> simp
  · exact callFacts_within h
  · exact ifFacts_within h
  · exact matchFacts_within h
  · exact globalFacts_within h scope
  · exact .empty

theorem classRecord_within (scope : Scope) {methods : List FunctionDef}
    (hms : ∀ m ∈ methods, m.Within t.firstLine t.lastLine) :
    (classRecord scope t methods).Within t.firstLine t.lastLine := by
  refine ClassDef.within_addMethods ?_ ?_ ?_ h.firstLine_le_lastLine hms <;> rfl

/-- **The facts of a tree stand on its lines.** -/
theorem facts_within (scope : Scope) : (facts scope t).Within t.firstLine t.lastLine := by
  induction t using Tree.induction_parts generalizing scope with
  | step t ih =>
      have inside := Facts.Within.parts joins_facts (partScope scope t) h ih
      cases t with
      | leaf => exact ownFacts_within h scope
      | node kind role first rest =>
          rw [facts]
          split
          · exact inside.record (classRecord_within h scope inside.methods)
          · exact (ownFacts_within h scope).append inside

end Python

/-! ### Scripts -/

namespace Script

variable {t : Tree}

theorem clause_within {lo hi line : Nat} (h : lo ≤ line ∧ line ≤ hi) (module : String)
    (names bindings : List String) (kind : ImportKind) :
    (clause module names bindings kind line).Within lo hi := by
  unfold clause
  split
  · exact .empty
  · constructor <;> simp [h]

theorem mem_children_of_functionValue? {v : Tree} (h : functionValue? t = some v) :
    v ∈ t.children :=
  Tree.mem_children_of_child? (Option.filter_eq_some_iff.mp h).1

theorem freeFunction_within {lo hi : Nat} {f : FunctionDef} (h : f.Within lo hi) (scope : Scope) :
    (freeFunction scope f).Within lo hi := by
  unfold freeFunction
  split
  · have hf : FunctionDef.Within lo hi { f with isExported := scope.isExported } :=
      ⟨h.starts, h.ordered, h.ends⟩
    constructor <;> simp [hf]
  · exact .empty

section Lines

variable (h : t.InOrder)
include h

theorem firstLine_within : t.firstLine ≤ t.firstLine ∧ t.firstLine ≤ t.lastLine :=
  ⟨Nat.le_refl _, h.firstLine_le_lastLine⟩

theorem importFacts_within : (importFacts t).Within t.firstLine t.lastLine := by
  unfold importFacts
  split <;> exact clause_within (firstLine_within h) ..

theorem callFacts_within (target : Option Tree) :
    (callFacts target t).Within t.firstLine t.lastLine := by
  unfold callFacts
  split
  · exact .empty
  · dsimp only
    split
    · exact .empty
    · exact clause_within (firstLine_within h) ..

theorem functionRecord_within (name : String) :
    (functionRecord name t).Within t.firstLine t.lastLine :=
  ⟨Nat.le_refl _, h.firstLine_le_lastLine, Nat.le_refl _⟩

theorem signatureRecord_within (name : String) (isExported : Bool) :
    (signatureRecord name isExported t).Within t.firstLine t.lastLine :=
  ⟨Nat.le_refl _, h.firstLine_le_lastLine, Nat.le_refl _⟩

theorem methodRecord_within : (methodRecord t).Within t.firstLine t.lastLine :=
  ⟨Nat.le_refl _, h.firstLine_le_lastLine, Nat.le_refl _⟩

/-- A function that is the value of a field or a variable. -/
theorem functionValue_within {v : Tree} (hv : functionValue? t = some v) (name : String) :
    (functionRecord name v).Within t.firstLine t.lastLine := by
  have hmem := mem_children_of_functionValue? hv
  obtain ⟨hlo, hhi⟩ := h.within_of_mem_children hmem
  exact (functionRecord_within (h.of_mem_children hmem) name).widen hlo hhi

theorem memberMethods_within : ∀ m ∈ memberMethods t, m.Within t.firstLine t.lastLine := by
  unfold memberMethods
  split
  · exact List.forall_mem_singleton.mpr (methodRecord_within h)
  · exact List.forall_mem_singleton.mpr (signatureRecord_within h _ _)
  · exact List.forall_mem_singleton.mpr (signatureRecord_within h _ _)
  · intro m hm
    obtain ⟨v, hv, rfl⟩ := List.mem_map.mp hm
    have hf := functionValue_within h (Option.mem_toList.mp hv) (nameOf t)
    exact ⟨hf.starts, hf.ordered, hf.ends⟩
  · exact fun _ hm => absurd hm List.not_mem_nil

theorem classRecord_within (isExported : Bool) {methods : List FunctionDef}
    (hms : ∀ m ∈ methods, m.Within t.firstLine t.lastLine) :
    (classRecord isExported t methods).Within t.firstLine t.lastLine := by
  refine ClassDef.within_addMethods ?_ ?_ ?_ h.firstLine_le_lastLine hms <;> rfl

theorem interfaceMethods_within :
    ∀ m ∈ interfaceMethods t, m.Within t.firstLine t.lastLine := by
  intro m hm
  obtain ⟨part, hpart, rfl⟩ := List.mem_map.mp hm
  have hmem : part ∈ t.children := List.mem_of_mem_filter (List.mem_of_mem_filter hpart)
  obtain ⟨hlo, hhi⟩ := h.within_of_mem_children hmem
  exact (signatureRecord_within (h.of_mem_children hmem) _ _).widen hlo hhi

theorem interfaceRecord_within (isExported : Bool) :
    (interfaceRecord isExported t).Within t.firstLine t.lastLine := by
  refine ClassDef.within_addMethods ?_ ?_ ?_ h.firstLine_le_lastLine ?_
  · rfl
  · rfl
  · rfl
  · cases hbody : t.child? .body with
    | none => exact fun _ hm => absurd hm List.not_mem_nil
    | some body =>
        have hmem := Tree.mem_children_of_child? hbody
        obtain ⟨hlo, hhi⟩ := h.within_of_mem_children hmem
        exact fun m hm => (interfaceMethods_within (h.of_mem_children hmem) m hm).widen hlo hhi

theorem ownClass?_within (scope : Scope) {methods : List FunctionDef}
    (hms : ∀ m ∈ methods, m.Within t.firstLine t.lastLine) {c : ClassDef}
    (hc : ownClass? scope t methods = some c) : c.Within t.firstLine t.lastLine := by
  unfold ownClass? at hc
  split at hc
  · exact Option.some.inj hc ▸ classRecord_within h _ hms
  · exact Option.some.inj hc ▸ classRecord_within h _ hms
  · exact Option.some.inj hc ▸ classRecord_within h _ hms
  · exact Option.some.inj hc ▸ interfaceRecord_within h _
  · cases hc

theorem ifFacts_within : (ifFacts t).Within t.firstLine t.lastLine := by
  unfold ifFacts
  dsimp only
  split
  · exact .empty
  · constructor <;> simp [Chain.ofTests, h.firstLine_le_lastLine]

theorem switchFacts_within : (switchFacts t).Within t.firstLine t.lastLine := by
  unfold switchFacts
  dsimp only
  split
  · exact .empty
  · constructor <;> simp [h.firstLine_le_lastLine]

theorem instantiationFacts_within : (instantiationFacts t).Within t.firstLine t.lastLine := by
  unfold instantiationFacts
  split
  · exact .empty
  · constructor <;> simp [h.firstLine_le_lastLine]

theorem writeFacts_within (scope : Scope) (role : Role) :
    (writeFacts scope role t).Within t.firstLine t.lastLine := by
  unfold writeFacts
  split
  · split
    · constructor <;> simp [h.firstLine_le_lastLine]
    · exact .empty
  · exact .empty

/-- What a tree in an ordinary place says by itself stands on its own lines. -/
theorem plainFacts_within (scope : Scope) : (plainFacts scope t).Within t.firstLine t.lastLine := by
  unfold plainFacts
  split
  case h_1 => exact importFacts_within h
  case h_2 =>
    split
    · exact clause_within (firstLine_within h) ..
    · exact .empty
  case h_3 | h_4 => exact freeFunction_within (functionRecord_within h _) scope
  case h_5 | h_6 | h_7 => constructor <;> simp
  case h_8 => constructor <;> simp [h.firstLine_le_lastLine]
  case h_9 | h_10 => constructor <;> simp
  case h_11 => exact callFacts_within h scope.target
  case h_12 => exact instantiationFacts_within h
  case h_13 =>
    split
    · exact .empty
    · exact ifFacts_within h
  case h_14 => exact switchFacts_within h
  case h_15 | h_16 | h_17 => exact writeFacts_within h scope _
  case h_18 => exact .empty

/-- What a tree says by itself stands on its own lines. -/
theorem ownFacts_within (scope : Scope) : (ownFacts scope t).Within t.firstLine t.lastLine := by
  unfold ownFacts
  split
  case h_1 => exact plainFacts_within h scope
  case h_2 =>
    split
    · split
      · exact .empty
      · exact plainFacts_within h scope
    · exact { Facts.Within.empty with methods := memberMethods_within h }
  case h_3 =>
    split
    · rename_i v hv
      exact freeFunction_within (functionValue_within h hv _) scope
    · exact .empty
  case h_4 | h_5 => exact .empty

/-- **The facts of a tree stand on its lines.** -/
theorem facts_within (scope : Scope) : (facts scope t).Within t.firstLine t.lastLine := by
  induction t using Tree.induction_parts generalizing scope with
  | step t ih =>
      have inside := Facts.Within.parts joins_facts (partScope scope t) h ih
      cases t with
      | leaf => exact ownFacts_within h scope
      | node kind role first rest =>
          rw [facts]
          split
          · rename_i c hc
            exact inside.record (ownClass?_within h scope inside.methods hc)
          · exact (ownFacts_within h scope).append inside

end Lines

end Script

/-! ### Outlines -/

/-- The facts of trees that spell a text stand on its lines. -/
theorem Facts.Within.of_faithful {κ σ : Type} {facts : σ → Tree κ → Facts}
    {factsAll : (Tree κ → Option σ) → List (Tree κ) → Facts} (hjoins : Joins facts factsAll)
    (place : Tree κ → Option σ) {forest : List (Tree κ)} {text : String}
    (h : Tree.faithful forest text.toList = true)
    (hfacts : ∀ t : Tree κ, t.InOrder → ∀ scope,
      (facts scope t).Within t.firstLine t.lastLine) :
    (factsAll place forest).Within 1 (Text.lineCount text) :=
  joined hjoins place (fun _ ht => Tree.within_of_faithful h ht) fun t ht =>
    hfacts t (Tree.inOrder_of_faithful h ht)

namespace Family

/-- Syntax trees spell a text: their leaves are the start of it, each on the line it states. -/
def Spells : (family : Family) → family.Forest → String → Prop
  | python, forest, text => Tree.faithful forest text.toList = true
  | script, forest, text => Tree.faithful forest text.toList = true

theorem facts_within {family : Family} {forest : family.Forest} {text : String}
    (h : family.Spells forest text) : (family.facts forest).Within 1 (Text.lineCount text) := by
  cases family with
  | python =>
      exact .of_faithful Python.joins_facts _ h fun _ ht => Python.facts_within ht
  | script =>
      exact .of_faithful Script.joins_facts _ h fun _ ht => Script.facts_within ht

theorem spells_of_parse {family : Family} {file : Path} {text : String} {forest : family.Forest}
    (h : family.parse file text = .ok forest) : family.Spells forest text := by
  cases family with
  | python => exact (Python.reads_of_parse h).2
  | script => exact (Script.reads_of_parse h).2

/-- **Spans.**  Whatever the syntax trees are, if they spell the text then every line in its outline
is a line of the text, definitions do not end before they start, and methods lie within their class.
The syntax trees of every text that can be read spell it, so this holds of every outline. -/
theorem outline_spanned (family : Family) (file : Path) (language : Language) (text : String) :
    (∀ forest, family.Spells forest text →
      (family.outlineOf file language text forest).Spanned) ∧
    (∀ forest, family.parse file text = .ok forest → family.Spells forest text) ∧
    ∀ o, family.outline file language text = .ok o → o.Spanned := by
  have spanned : ∀ forest, family.Spells forest text →
      (family.outlineOf file language text forest).Spanned := fun _ h => (facts_within h).spanned ..
  refine ⟨spanned, fun _ => spells_of_parse, fun o h => ?_⟩
  obtain ⟨forest, hparse, rfl⟩ := exists_parse_of_outline h
  exact spanned forest (spells_of_parse hparse)

end Family

/-- The lines of the classes in an outline, each with those of its methods. -/
def Outline.classLines (o : Outline) : List (Nat × Nat × List (Nat × Nat)) :=
  o.classes.map fun c => (c.startLine, c.endLine, c.methods.map fun m => (m.startLine, m.endLine))

/-- A class with a decorated method and a string over two lines. -/
def counterModule : String :=
  "class Counter:\n\n  @up\n  def reset(self):\n    n = \"\"\"a\nb\"\"\"\n\n  def up(self):\n" ++
    "    n += 2  # two\n"

/-- A class whose first method is a field. -/
def counterScript : String :=
  "class Counter \x7b\n  reset = () => \x7b\n    n = 0;\n  \x7d;\n" ++
    "  up() \x7b\n    n += 2;\n  \x7d\n\x7d"

theorem outline_spanned_counters :
    (∃ forest o, Family.python.parse ⟨"counter.py"⟩ counterModule = .ok forest ∧
      Family.python.Spells forest counterModule ∧
      Family.python.outline ⟨"counter.py"⟩ .python counterModule = .ok o ∧
      o.classLines = [(1, 9, [(4, 6), (8, 9)])] ∧ o.Spanned) ∧
    ∃ forest o, Family.script.parse ⟨"counter.ts"⟩ counterScript = .ok forest ∧
      Family.script.Spells forest counterScript ∧
      Family.script.outline ⟨"counter.ts"⟩ .typeScript counterScript = .ok o ∧
      o.classLines = [(1, 8, [(2, 4), (5, 7)])] ∧ o.Spanned := by
  constructor
  · obtain ⟨spanned, spells, -⟩ :=
      Family.outline_spanned .python ⟨"counter.py"⟩ .python counterModule
    have read : (Family.python.parse ⟨"counter.py"⟩ counterModule).toOption.any (fun forest =>
        decide ((Family.python.outlineOf ⟨"counter.py"⟩ .python counterModule forest).classLines =
          [(1, 9, [(4, 6), (8, 9)])])) = true := by decide +kernel
    obtain ⟨forest, hparse, hlines⟩ := exists_ok_of_any read
    have hspells := spells forest hparse
    exact ⟨forest, _, hparse, hspells, Family.outline_of_parse hparse .python, hlines,
      spanned forest hspells⟩
  · obtain ⟨spanned, spells, -⟩ :=
      Family.outline_spanned .script ⟨"counter.ts"⟩ .typeScript counterScript
    have read : (Family.script.parse ⟨"counter.ts"⟩ counterScript).toOption.any (fun forest =>
        decide ((Family.script.outlineOf ⟨"counter.ts"⟩ .typeScript counterScript
          forest).classLines = [(1, 8, [(2, 4), (5, 7)])])) = true := by decide +kernel
    obtain ⟨forest, hparse, hlines⟩ := exists_ok_of_any read
    have hspells := spells forest hparse
    exact ⟨forest, _, hparse, hspells, Family.outline_of_parse hparse .typeScript, hlines,
      spanned forest hspells⟩

end ArchReview

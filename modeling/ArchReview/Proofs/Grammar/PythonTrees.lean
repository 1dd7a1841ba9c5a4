import ArchReview.Grammar.Python
import ArchReview.Proofs.Grammar.Steps
import ArchReview.Proofs.Tree.Subtrees

/-!
# Where definitions stand in Python trees

A tree without definitions is `Plain`, as every expression is.  Definitions stand in statements, and
of a definition only in its suite: a name, a parameter, a base class or a decorator holds none, and
neither does an import or an assignment.  A tree in which this is so is `Upright`.

Forests are plain or upright if all of their trees are, and the lemmas here say so of the ways in
which the grammar puts forests together: `++`, `node` and `withRole`.  Comments and continuations
are made before any rule is applied, so what is known of those ahead of a cursor is kept apart
(`Look.Sound`): they are plain, and they are what follows in the text, up to the next token.
-/

namespace ArchReview.Python

open Grammar

/-! ### Plain and upright trees -/

/-- Functions and classes. -/
def Kind.isDefinition (k : Kind) : Bool := k == .functionDefinition || k == .classDefinition

@[simp]
theorem Kind.not_isDefinition {k : Kind} (hfunction : k ≠ .functionDefinition)
    (hclass : k ≠ .classDefinition) : k.isDefinition = false := by
  simp [isDefinition, hfunction, hclass]

@[simp]
theorem Kind.ite_ne {c : Prop} [Decidable c] {k k' kind : Kind} (hk : k ≠ kind) (hk' : k' ≠ kind) :
    (if c then k else k') ≠ kind := by
  split <;> assumption

/-- There is no definition in a tree. -/
def Plain (t : Tree) : Prop := t.Everywhere fun u => u.kind.isDefinition = false

/-- Parts that hold no definitions. -/
def bars : Kind → Role → Bool
  | .importStatement, _ | .importFrom, _ | .futureImport, _ | .globalStatement, _
  | .keywordArgument, _ | .assignment, _ | .comment, _ | .continuation, _ => true
  | .functionDefinition, r | .classDefinition, r                          => r != .body
  | .decorated, r                                                         => r != .definition
  | _, _                                                                  => false

/-- A token is no definition, and there are none in the parts that hold none. -/
structure Proper (t : Tree) : Prop where
  token : t.children = [] → t.kind.isDefinition = false
  barred : ∀ part ∈ t.children, bars t.kind part.role = true → Plain part

/-- The definitions in a tree stand where definitions may stand. -/
def Upright (t : Tree) : Prop := t.Everywhere Proper

theorem plain_iff {t : Tree} :
    Plain t ↔ t.kind.isDefinition = false ∧ ∀ part ∈ t.children, Plain part :=
  Tree.everywhere_iff

theorem upright_iff {t : Tree} : Upright t ↔ Proper t ∧ ∀ part ∈ t.children, Upright part :=
  Tree.everywhere_iff

theorem Plain.upright {t : Tree} (h : Plain t) : Upright t := by
  induction t using Tree.induction_parts with
  | step t ih =>
      obtain ⟨hkind, hparts⟩ := plain_iff.mp h
      exact upright_iff.mpr ⟨⟨fun _ => hkind, fun part hpart _ => hparts part hpart⟩,
        fun part hpart => ih part hpart (hparts part hpart)⟩

theorem bars_of_isTrivia {k : Kind} (h : k.isTrivia = true) (r : Role) :
    k.isDefinition = false ∧ bars k r = true := by
  have hkind : k = .comment ∨ k = .continuation := by
    revert h
    cases k <;> decide
  rcases hkind with rfl | rfl <;> exact ⟨rfl, rfl⟩

/-- Trivia have no parts in which a definition may stand. -/
theorem Upright.plain {t : Tree} (h : Upright t) (htrivia : t.kind.isTrivia = true) : Plain t := by
  obtain ⟨hproper, -⟩ := upright_iff.mp h
  have hbars := fun r => bars_of_isTrivia htrivia r
  exact plain_iff.mpr ⟨(hbars .plain).1,
    fun part hpart => hproper.barred part hpart (hbars part.role).2⟩

theorem plain_leaf {kind : Kind} {role : Role} {gap text : String} {line : Nat}
    (hkind : kind.isDefinition = false) : Plain (.leaf kind role gap text line) :=
  plain_iff.mpr ⟨hkind, List.forall_mem_nil _⟩

@[simp]
theorem plain_setRole {t : Tree} {r : Role} : Plain (t.setRole r) ↔ Plain t := by
  cases t <;> rw [plain_iff, plain_iff] <;> rfl

@[simp]
theorem upright_setRole {t : Tree} {r : Role} : Upright (t.setRole r) ↔ Upright t := by
  cases t <;> rw [upright_iff, upright_iff] <;> exact and_congr_left fun _ =>
    ⟨fun h => ⟨h.token, h.barred⟩, fun h => ⟨h.token, h.barred⟩⟩

/-! ### Forests -/

@[simp]
theorem each_plain_node {kind : Kind} (hfunction : kind ≠ .functionDefinition)
    (hclass : kind ≠ .classDefinition) {forest : Forest} :
    Each Plain (node kind forest) ↔ Each Plain forest := by
  constructor
  · intro h t ht
    rcases exists_mem_node kind ht with ⟨hmem, -⟩ | ⟨u, hu, -, hpart⟩
    · exact h t hmem
    · exact (plain_iff.mp (h u hu)).2 t hpart
  · intro h t ht
    rcases mem_node ht with hmem | ⟨rfl, -, -, hparts⟩
    · exact h t hmem
    · exact plain_iff.mpr ⟨Kind.not_isDefinition hfunction hclass,
        fun part hpart => h part (hparts part hpart)⟩

@[simp]
theorem each_plain_nodeUnless {needless : Bool} {kind : Kind}
    (hfunction : kind ≠ .functionDefinition) (hclass : kind ≠ .classDefinition) {forest : Forest} :
    Each Plain (nodeUnless needless kind forest) ↔ Each Plain forest := by
  unfold nodeUnless
  split
  · exact Iff.rfl
  · exact each_plain_node hfunction hclass

theorem each_upright_node {kind : Kind} {forest : Forest} :
    Each Upright (node kind forest) ↔
      Each (fun t => Upright t ∧ (bars kind t.role = true → Plain t)) forest := by
  constructor
  · intro h t ht
    rcases exists_mem_node kind ht with ⟨hmem, htrivia⟩ | ⟨u, hu, rfl, hpart⟩
    · exact ⟨h t hmem, fun _ => (h t hmem).plain htrivia⟩
    · obtain ⟨hproper, hparts⟩ := upright_iff.mp (h u hu)
      exact ⟨hparts t hpart, hproper.barred t hpart⟩
  · intro h t ht
    rcases mem_node ht with hmem | ⟨rfl, -, hne, hparts⟩
    · exact (h t hmem).1
    · have fits := fun part hpart => h part (hparts part hpart)
      exact upright_iff.mpr ⟨⟨fun hnil => absurd hnil hne, fun part hpart => (fits part hpart).2⟩,
        fun part hpart => (fits part hpart).1⟩

@[simp]
theorem each_plain_withRole {r : Role} {forest : Forest} :
    Each Plain (withRole r forest) ↔ Each Plain forest := by
  refine List.forall_mem_map.trans (forall₂_congr fun t _ => ?_)
  split <;> simp

@[simp]
theorem each_upright_withRole {r : Role} {forest : Forest} :
    Each Upright (withRole r forest) ↔ Each Upright forest := by
  refine List.forall_mem_map.trans (forall₂_congr fun t _ => ?_)
  split <;> simp

@[simp]
theorem each_upright_of_plain {forest : Forest} (h : Each Plain forest) : Each Upright forest :=
  h.imp fun _ => Plain.upright

/-- Outside suites there are no definitions. -/
structure Suited (t : Tree) : Prop where
  upright : Upright t
  plain : t.role ≠ .body → Plain t

/-- Most nodes may have definitions in every part. -/
theorem each_upright_open (kind : Kind) (hopen : ∀ r, bars kind r = false) (forest : Forest) :
    Each Upright (node kind forest) ↔ Each Upright forest := by
  rw [each_upright_node]
  simp [hopen]

/-- Definitions may have definitions in their suites. -/
theorem each_upright_suited (kind : Kind) (hbars : ∀ r, bars kind r = (r != .body))
    (forest : Forest) : Each Upright (node kind forest) ↔ Each Suited forest := by
  refine each_upright_node.trans (forall₂_congr fun t _ => ?_)
  simp only [hbars, bne_iff_ne]
  exact ⟨fun h => ⟨h.1, h.2⟩, fun h => ⟨h.upright, h.plain⟩⟩

@[simp]
theorem each_suited_of_plain {forest : Forest} (h : Each Plain forest) : Each Suited forest :=
  h.imp fun _ ht => ⟨ht.upright, fun _ => ht⟩

@[simp]
theorem each_upright_of_suited {forest : Forest} (h : Each Suited forest) : Each Upright forest :=
  h.imp fun _ => Suited.upright

/-- Trivia keep their role, but there are no definitions in them. -/
theorem plain_of_mem_withRole {r : Role} {forest : Forest} (h : Each Upright forest) {t : Tree}
    (ht : t ∈ withRole r forest) (hrole : t.role ≠ r) : Plain t := by
  obtain ⟨u, hu, rfl⟩ := List.mem_map.mp ht
  split at hrole
  · next htrivia =>
      rw [if_pos htrivia]
      exact (h u hu).plain htrivia
  · cases u <;> exact absurd rfl hrole

@[simp]
theorem each_suited_withRole {forest : Forest} (h : Each Upright forest) :
    Each Suited (withRole .body forest) :=
  fun t ht => ⟨each_upright_withRole.mpr h t ht, plain_of_mem_withRole h ht⟩

theorem each_upright_decorated {marks subject : Forest} (hmarks : Each Plain marks)
    (hsubject : Each Upright subject) :
    Each Upright (node .decorated (marks ++ withRole .definition subject)) := by
  refine each_upright_node.mpr (each_append.mpr ⟨fun t ht => ?_, fun t ht => ?_⟩)
  · exact ⟨(hmarks t ht).upright, fun _ => hmarks t ht⟩
  · exact ⟨each_upright_withRole.mpr hsubject t ht,
      fun hbars => plain_of_mem_withRole hsubject ht (bne_iff_ne.mp hbars)⟩

/-! ### What is seen ahead -/

/-- From the place `s` trivia and blanks have been passed, and perhaps a part of a comment, up to
`rest`. -/
structure Gap.Sound (g : Gap) (s : Spot) (rest : List Char) : Prop where
  plain : ∀ t ∈ g.trivia, Plain t.leaf
  comment : g.comment ≠ some []
  passes : Tree.Passes (g.trivia.reverse.map Trivium.leaf) g.blanks.reverse s
    ⟨g.line, (g.comment.getD []).reverse ++ rest⟩

namespace Gap.Sound

variable {g : Gap} {s : Spot} {rest : List Char}

/-- Outside comments the rest follows the blanks. -/
theorem follows (h : g.Sound s rest) (hnone : g.comment = none) :
    Tree.Passes (g.trivia.reverse.map Trivium.leaf) g.blanks.reverse s ⟨g.line, rest⟩ := by
  simpa [hnone] using h.passes

theorem addTrivium {kind : Kind} (text : List Char) (h : g.Sound s (text ++ rest))
    (hnone : g.comment = none) (hkind : kind.isDefinition = false) (hne : text ≠ []) :
    (g.addTrivium kind text).Sound s rest where
  plain := List.forall_mem_cons.mpr ⟨plain_leaf hkind, h.plain⟩
  comment := by simp [Gap.addTrivium]
  passes := by simpa [Gap.addTrivium] using (h.follows hnone).leaf hne

theorem close (h : g.Sound s rest) : g.close.Sound s rest ∧ g.close.comment = none := by
  unfold Gap.close
  split
  · next hnone => exact ⟨h, hnone⟩
  · next cs hsome =>
      have hne : cs ≠ [] := fun hnil => h.comment (hnil ▸ hsome)
      have opened : Gap.Sound { g with comment := none } s (cs.reverse ++ rest) :=
        ⟨h.plain, by simp, by simpa [hsome] using h.passes⟩
      exact ⟨opened.addTrivium _ rfl rfl (List.reverse_eq_nil_iff.not.mpr hne), rfl⟩

theorem addBlank {c : Char} (h : g.Sound s (c :: rest)) (hnone : g.comment = none) :
    (g.addBlank c).Sound s rest := by
  have blank := (h.follows hnone).blank
  unfold Gap.addBlank
  dsimp only
  split_ifs with hbreak
  all_goals
    refine ⟨h.plain, by simp [hnone], ?_⟩
    simpa [hbreak, hnone] using blank

theorem commentChar {c : Char} (h : g.Sound s (c :: rest)) : (g.commentChar c).Sound s rest where
  plain := h.plain
  comment := by simp [Gap.commentChar]
  passes := by simpa [Gap.commentChar] using h.passes

/-- A comment ends with its line. -/
theorem endLine {c : Char} (h : g.Sound s (c :: rest)) : (g.close.addBlank c).Sound s rest :=
  addBlank h.close.1 h.close.2

theorem pass (h : g.Sound s rest) :
    (g.pass rest).1.Sound s (g.pass rest).2 ∧ (g.pass rest).1.comment = none := by
  fun_induction Gap.pass g rest with
  | case1 g => exact ⟨⟨h.close.1.plain, h.close.1.comment, h.close.1.passes⟩, h.close.2⟩
  | case2 g cs _ ih => exact ih h.commentChar.endLine
  | case3 g cs hnone ih =>
      exact ih (addTrivium ['\\', '\n'] h (by simpa using hnone) rfl (by decide))
  | case4 g cs _ ih => exact ih h.commentChar.commentChar.endLine
  | case5 g cs hnone ih =>
      exact ih (addTrivium ['\\', '\r', '\n'] h (by simpa using hnone) rfl (by decide))
  | case6 g c cs _ _ _ _ ih => exact ih h.endLine
  | case7 g c cs _ _ _ _ ih => exact ih h.commentChar
  | case8 g c cs _ _ _ _ ih => exact ih h.commentChar
  | case9 g c cs _ _ hnone _ _ ih => exact ih (h.addBlank (by simpa using hnone))
  | case10 g c cs _ _ hnone => exact ⟨h, by simpa using hnone⟩

end Gap.Sound

theorem dissolve_subset (trivia : List Trivium) (gap : List Char) :
    (dissolve trivia gap).1 ⊆ trivia := by
  fun_induction dissolve trivia gap with
  | case1 gap t ts _ _ _ _ _ _ _ ih => exact List.Subset.trans ih (List.subset_cons_self t ts)
  | case2 | case3 | case4 => exact List.Subset.refl _

theorem passes_dissolve {trivia : List Trivium} {gap : List Char} {s s' : Spot}
    (h : Tree.Passes (trivia.reverse.map Trivium.leaf) gap s s') :
    Tree.Passes ((dissolve trivia gap).1.reverse.map Trivium.leaf) (dissolve trivia gap).2
      s s' := by
  fun_induction dissolve trivia gap with
  | case1 gap t ts _ kind role blanks text line e ih =>
      have last : ArchReview.Tree.Passes
          (ts.reverse.map Trivium.leaf ++ [.leaf kind role blanks text line]) gap s s' := by
        simpa [e] using h
      exact ih last.dissolve
  | case2 | case3 | case4 => exact h

/-- From the place `s`, trivia and a token have been seen ahead. -/
structure Look.Sound (look : Look) (s : Spot) : Prop where
  plain : ∀ t ∈ look.trivia, Plain t.leaf
  passes : Tree.Passes (look.trivia.map Trivium.leaf) look.gap.toList s
    ⟨look.line, look.text.toList ++ look.rest⟩

theorem Look.sound_scan (cs : List Char) (line : Nat) : (Look.scan cs line).Sound ⟨line, cs⟩ := by
  have start : Gap.Sound ⟨[], [], line, false, 0, none⟩ ⟨line, cs⟩ cs :=
    ⟨List.forall_mem_nil _, by simp, .refl _⟩
  obtain ⟨passed, hnone⟩ := start.pass
  have hpasses := passed.follows hnone
  unfold Look.scan
  dsimp only
  split
  · refine ⟨fun t ht => passed.plain t (dissolve_subset _ _ (List.mem_reverse.mp ht)), ?_⟩
    simpa using passes_dissolve hpasses
  · refine ⟨fun t ht => passed.plain t (List.mem_reverse.mp ht), ?_⟩
    simpa using hpasses

/-- The trivia ahead may be taken before the token. -/
theorem Look.Sound.drop {look : Look} {s : Spot} (h : look.Sound s) {taken : List Trivium}
    (hfirst : taken <+: look.trivia) :
    let forest := taken.map Trivium.leaf
    let size := Tree.forestSize forest
    let s' : Spot := ⟨s.line + (s.rest.take size).count '\n', s.rest.drop size⟩
    Each Plain forest ∧ Tree.behind forest s = some s' ∧
      Look.Sound { look with trivia := look.trivia.drop taken.length } s' := by
  obtain ⟨left, hleft⟩ := hfirst
  have hpasses := h.passes
  have hplain := h.plain
  rw [← hleft] at hpasses hplain
  rw [List.map_append] at hpasses
  obtain ⟨htaken, hlast⟩ := hpasses.split
  obtain ⟨plain, hrest⟩ := List.forall_mem_append.mp hplain
  rw [← hleft, List.drop_left]
  exact ⟨List.forall_mem_map.mpr plain, htaken, hrest, hlast⟩

instance : Located Cursor where
  spot c := ⟨c.line, c.chars⟩
  Sound c := c.look.Sound ⟨c.line, c.chars⟩

end ArchReview.Python

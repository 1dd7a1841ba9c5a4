import ArchReview.Grammar.Script
import ArchReview.Proofs.Grammar.Steps
import ArchReview.Proofs.Tree.Subtrees

/-!
# Operators in the trees of scripts

Whether an operation branches is read off the text of its operator.  Operators are single tokens, so
that nothing can change in them when something nested in an operation changes.  A tree in which
this is so is `Neat`.

The lemmas here say of the ways in which the grammar puts forests together that they keep the trees
neat.  Comments are made before any rule is applied, so what is known of those ahead of a cursor is
kept apart (`Look.Sound`): they are tokens, and they are what follows in the text, up to the next
token.
-/

namespace ArchReview.Script

open Grammar

/-! ### Tokens and neat trees -/

/-- A tree without parts. -/
def Token (t : Tree) : Prop := t.children = []

/-- The operators in a tree are tokens. -/
def Neat (t : Tree) : Prop := t.Everywhere fun u => u.role = .operator → Token u

theorem neat_iff {t : Tree} :
    Neat t ↔ (t.role = .operator → Token t) ∧ ∀ part ∈ t.children, Neat part :=
  Tree.everywhere_iff

theorem Token.neat {t : Tree} (h : Token t) : Neat t :=
  neat_iff.mpr ⟨fun _ => h, by rw [show t.children = [] from h]; exact List.forall_mem_nil _⟩

theorem Token.setRole {t : Tree} (h : Token t) (r : Role) : Token (t.setRole r) := by
  cases t with
  | leaf => rfl
  | node => cases h

theorem Neat.setRole {t : Tree} (h : Neat t) {r : Role} (hr : r ≠ .operator) :
    Neat (t.setRole r) := by
  cases t with
  | leaf => exact Token.neat rfl
  | node kind role first rest =>
      exact neat_iff.mpr ⟨fun hrole => absurd hrole hr, (neat_iff.mp h).2⟩

/-! ### Patterns -/

theorem role_toPattern (t : Tree) : (toPattern t).role = t.role := by
  cases t with
  | leaf => rfl
  | node kind role first rest => unfold toPattern; split <;> rfl

theorem toPatterns_eq (ts : List Tree) :
    toPatterns ts = ts.map fun t => if t.role == .key then t else toPattern t := by
  induction ts with
  | nil => rfl
  | cons t ts ih => rw [toPatterns, ih, List.map_cons]

/-- The parts of the pattern that a literal stands for are parts of the literal, some of them made
patterns. -/
theorem mem_children_toPattern {t part : Tree} (h : part ∈ (toPattern t).children) :
    ∃ u ∈ t.children, part = u ∨ part = toPattern u := by
  cases t with
  | leaf => cases h
  | node kind role first rest =>
      unfold toPattern at h
      split at h
      · have made : part ∈ (first :: rest).map fun t =>
            if t.role == .key then t else toPattern t := by
          rw [List.map_cons, ← toPatterns_eq]
          exact h
        obtain ⟨u, hu, rfl⟩ := List.mem_map.mp made
        refine ⟨u, hu, ?_⟩
        split
        · exact Or.inl rfl
        · exact Or.inr rfl
      · exact ⟨part, h, Or.inl rfl⟩

theorem Token.toPattern {t : Tree} (h : Token t) : Token (toPattern t) := by
  cases t with
  | leaf => rfl
  | node => cases h

theorem Neat.toPattern {t : Tree} (h : Neat t) : Neat (toPattern t) := by
  induction t using Tree.induction_parts with
  | step t ih =>
      obtain ⟨hrole, hparts⟩ := neat_iff.mp h
      refine neat_iff.mpr ⟨fun hoperator => (hrole (role_toPattern t ▸ hoperator)).toPattern,
        fun part hpart => ?_⟩
      obtain ⟨u, hu, rfl | rfl⟩ := mem_children_toPattern hpart
      · exact hparts _ hu
      · exact ih u hu (hparts u hu)

mutual

theorem leaves_toPattern : ∀ t : Tree, (toPattern t).leaves = t.leaves
  | .leaf .. => rfl
  | .node kind role first rest => by
      unfold toPattern
      split
      · rw [Tree.leaves_node, Tree.leaves_node, forestLeaves_toPatterns rest]
        split
        · rfl
        · rw [leaves_toPattern first]
      · rfl

theorem forestLeaves_toPatterns : ∀ ts : List Tree,
    Tree.forestLeaves (toPatterns ts) = Tree.forestLeaves ts
  | [] => rfl
  | t :: ts => by
      rw [toPatterns, Tree.forestLeaves_cons, Tree.forestLeaves_cons, forestLeaves_toPatterns ts]
      split
      · rfl
      · rw [leaves_toPattern t]

end

/-! ### Forests -/

@[simp]
theorem each_neat_of_token {forest : Forest} (h : Each Token forest) : Each Neat forest :=
  h.imp fun _ => Token.neat

@[simp]
theorem each_neat_node {kind : Kind} {forest : Forest} :
    Each Neat (node kind forest) ↔ Each Neat forest := by
  constructor
  · intro h t ht
    rcases exists_mem_node kind ht with ⟨hmem, -⟩ | ⟨u, hu, -, hpart⟩
    · exact h t hmem
    · exact (neat_iff.mp (h u hu)).2 t hpart
  · intro h t ht
    rcases mem_node ht with hmem | ⟨-, hrole, -, hparts⟩
    · exact h t hmem
    · refine neat_iff.mpr ⟨fun hoperator => ?_, fun part hpart => h part (hparts part hpart)⟩
      rw [hrole] at hoperator
      cases hoperator

@[simp]
theorem each_neat_nodeUnless {needless : Bool} {kind : Kind} {forest : Forest} :
    Each Neat (nodeUnless needless kind forest) ↔ Each Neat forest := by
  unfold nodeUnless
  split
  · exact Iff.rfl
  · exact each_neat_node

theorem each_token_withRole {r : Role} {forest : Forest} (h : Each Token forest) :
    Each Token (withRole r forest) := by
  refine List.forall_mem_map.mpr fun t ht => ?_
  split
  · exact h t ht
  · exact (h t ht).setRole r

/-- A role is given to tokens. -/
@[simp]
theorem each_neat_withRole_of_token {r : Role} {forest : Forest} (h : Each Token forest) :
    Each Neat (withRole r forest) :=
  each_neat_of_token (each_token_withRole h)

/-- A role that is not an operator's is given to any trees. -/
@[simp]
theorem each_neat_withRole {r : Role} (hr : r ≠ .operator) {forest : Forest}
    (h : Each Neat forest) : Each Neat (withRole r forest) := by
  refine List.forall_mem_map.mpr fun t ht => ?_
  split
  · exact h t ht
  · exact (h t ht).setRole hr

@[simp]
theorem each_neat_toPattern {forest : Forest} (h : Each Neat forest) :
    Each Neat (forest.map toPattern) :=
  List.forall_mem_map.mpr fun t ht => (h t ht).toPattern

@[simp]
theorem behind_toPattern {forest : Forest} {s : Spot} :
    Tree.behind (forest.map toPattern) s = Tree.behind forest s := by
  rw [Tree.behind, Tree.forestLeaves_map leaves_toPattern]
  rfl

/-! ### What is seen ahead -/

/-- From the place `s` comments and blanks have been passed, and perhaps a part of a comment, up to
`rest`. -/
structure Gap.Sound (g : Gap) (s : Spot) (rest : List Char) : Prop where
  token : ∀ t ∈ g.trivia, Token t.leaf
  inside : g.inside = [] ↔ g.comment = .none
  passes : Tree.Passes (g.trivia.reverse.map Trivium.leaf) g.blanks.reverse s
    ⟨g.line, g.inside.reverse ++ rest⟩

namespace Gap.Sound

variable {g : Gap} {s : Spot} {rest : List Char}

theorem close (h : g.Sound s rest) : g.close.Sound s rest ∧ g.close.comment = .none := by
  unfold Gap.close
  split
  · next hnone => exact ⟨h, by simpa using hnone⟩
  · next hopen =>
      have hne : g.inside.reverse ≠ [] := by simpa [h.inside] using hopen
      refine ⟨⟨List.forall_mem_cons.mpr ⟨rfl, h.token⟩, iff_of_true rfl rfl, ?_⟩, rfl⟩
      simpa using h.passes.leaf hne

theorem addBlank {c : Char} (h : g.Sound s (c :: rest)) (hnone : g.comment = .none) :
    (g.addBlank c).Sound s rest := by
  have hinside := h.inside.mpr hnone
  have hpasses := h.passes
  rw [hinside] at hpasses
  refine ⟨h.token, h.inside, ?_⟩
  simpa [Gap.addBlank, hinside] using hpasses.blank

/-- A comment ends with its line. -/
theorem endLine {c : Char} (h : g.Sound s (c :: rest)) : (g.close.addBlank c).Sound s rest :=
  addBlank h.close.1 h.close.2

theorem addInside {c : Char} (h : g.Sound s (c :: rest)) (hopen : g.comment ≠ .none) :
    (g.addInside c).Sound s rest where
  token := h.token
  inside := iff_of_false (List.cons_ne_nil _ _) hopen
  passes := by simpa [Gap.addInside] using h.passes

/-- A comment starts. -/
theorem opens {comment : Comment} (text : List Char) (h : g.Sound s (text ++ rest))
    (hnone : g.comment = .none) (hne : text ≠ []) (hopen : comment ≠ .none) :
    Gap.Sound { g with comment, inside := text.reverse } s rest where
  token := h.token
  inside := iff_of_false (List.reverse_eq_nil_iff.not.mpr hne) hopen
  passes := by simpa [h.inside.mpr hnone] using h.passes

theorem pass (h : g.Sound s rest) : (g.pass rest).1.Sound s (g.pass rest).2 := by
  fun_induction Gap.pass g rest with
  | case1 g =>
      dsimp only
      split
      · exact h.close.1
      · exact h
  | case2 | case11 => exact h
  | case3 g cs hline ih =>
      have hopen : g.comment ≠ .none := by simp [hline]
      exact ih ((h.addInside hopen).addInside hopen)
  | case4 g cs hblock ih =>
      have hopen : g.comment ≠ .none := by simp [hblock]
      exact ih (close ((h.addInside hopen).addInside hopen)).1
  | case5 g cs hnone ih =>
      exact ih (opens ['/', '/'] h (by simpa using hnone) (by decide) (by decide))
  | case6 g cs hopen ih =>
      have hopen : g.comment ≠ .none := by simpa using hopen
      exact ih ((h.addInside hopen).addInside hopen)
  | case7 g cs hnone ih => exact ih (opens ['/', '*'] h hnone (by decide) (by decide))
  | case8 g cs hline ih =>
      have hopen : g.comment ≠ .none := by simp [hline]
      exact ih ((h.addInside hopen).addInside hopen)
  | case9 g cs hblock ih => exact ih (h.addInside (by simp [hblock]))
  | case10 g c cs _ _ _ hnone _ ih => exact ih (h.addBlank hnone)
  | case12 g c cs _ _ _ _ _ ih => exact ih h.endLine
  | case13 g c cs _ _ _ hline _ ih => exact ih (h.addInside (by simp [hline]))
  | case14 g c cs _ _ _ hblock ih => exact ih (h.addInside (by simp [hblock]))

end Gap.Sound

/-- From the place `s`, comments and a token have been seen ahead. -/
structure Look.Sound (look : Look) (s : Spot) : Prop where
  token : ∀ t ∈ look.trivia, Token t.leaf
  passes : Tree.Passes (look.trivia.map Trivium.leaf) look.gap.toList s ⟨look.line, look.start⟩
  start : look.start = look.text.toList ++ look.rest

theorem Look.sound_scanFrom {g : Gap} {cs : List Char} {s : Spot} (h : g.Sound s cs) :
    (Look.scanFrom g cs).Sound s where
  token t ht := h.pass.token t (List.mem_reverse.mp ht)
  passes := by simpa [Look.scanFrom] using h.pass.passes
  start := by simp [Look.scanFrom]

theorem Look.sound_scan (cs : List Char) (line : Nat) : (Look.scan cs line).Sound ⟨line, cs⟩ :=
  Look.sound_scanFrom ⟨List.forall_mem_nil _, iff_of_true rfl rfl, .refl _⟩

/-- A comment in the style of HTML has at least a character. -/
theorem Look.takeWhile_ne_nil {look : Look} (h : look.atHtmlComment = true) :
    look.start.takeWhile (fun c => !isLineEnd c) ≠ [] := by
  obtain ⟨mark, hmark, hstart⟩ := List.any_eq_true.mp h
  obtain ⟨rest, hrest⟩ := List.isPrefixOf_iff_prefix.mp hstart
  rw [← hrest]
  simp only [List.mem_cons, List.not_mem_nil, or_false] at hmark
  rcases hmark with rfl | rfl <;> exact List.cons_ne_nil _ _

theorem Look.Sound.passHtmlComment {look : Look} {s : Spot} (h : look.Sound s)
    (hmark : look.atHtmlComment = true) : look.passHtmlComment.Sound s := by
  unfold Look.passHtmlComment
  generalize htext : look.start.takeWhile (fun c => !isLineEnd c) = text
  have hne : text ≠ [] := htext ▸ Look.takeWhile_ne_nil hmark
  have hstart : look.start = text ++ look.start.drop text.length := by
    rw [← htext]
    exact (List.prefix_iff_eq_append.mp (List.takeWhile_prefix _)).symm
  obtain ⟨token, passes, start⟩ :=
    Look.sound_scan (look.start.drop text.length) (look.line + text.count '\n')
  have comment : Tree.Passes (look.trivia.map Trivium.leaf ++
      [.leaf .htmlComment .plain look.gap (String.ofList text) look.line]) [] s
        ⟨look.line + text.count '\n', look.start.drop text.length⟩ := by
    have hpasses := h.passes
    rw [hstart] at hpasses
    simpa using hpasses.leaf hne
  refine ⟨?_, ?_, start⟩
  · exact List.forall_mem_append.mpr ⟨h.token, List.forall_mem_cons.mpr ⟨rfl, token⟩⟩
  · simpa using comment.trans passes

/-- The comments ahead may be taken before the token. -/
theorem Look.Sound.dropWhile {look : Look} {s : Spot} (h : look.Sound s) (p : Trivium → Bool) :
    let forest := (look.trivia.takeWhile p).map Trivium.leaf
    let size := Tree.forestSize forest
    let s' : Spot := ⟨s.line + (s.rest.take size).count '\n', s.rest.drop size⟩
    Each Token forest ∧ Tree.behind forest s = some s' ∧
      Look.Sound { look with trivia := look.trivia.dropWhile p } s' := by
  have hpasses := h.passes
  have htoken := h.token
  rw [← List.takeWhile_append_dropWhile (p := p) (l := look.trivia)] at hpasses htoken
  rw [List.map_append] at hpasses
  obtain ⟨htaken, hlast⟩ := hpasses.split
  obtain ⟨token, hrest⟩ := List.forall_mem_append.mp htoken
  exact ⟨List.forall_mem_map.mpr token, htaken, hrest, hlast, h.start⟩

instance : Located Cursor where
  spot c := ⟨c.line, c.chars⟩
  Sound c := c.look.Sound ⟨c.line, c.chars⟩

end ArchReview.Script

import ArchReview.Proofs.Grammar.ScriptRules
import ArchReview.Proofs.Outline.Names

/-!
# Complexity and nested declarations

The complexity of a function counts the branching constructs in its body.  What is declared inside
the body has a complexity of its own, so declarations are passed over: of Python both definitions,
of scripts the declarations of functions and classes and the expressions that are classes.

**Nested bodies** (`complexity_nested`).  Replacing the body of a definition nested in a Python
function leaves its complexity as it is.  In scripts this holds of everything that is passed over,
and of what lies inside it.  The declarations of generators and of abstract classes are not passed
over: their branching constructs are counted for the function around them, so emptying the body of
such a declaration takes exactly these off (`Script.complexity_counts_generator`).

Both counts are tallies of a tree (`Tally`): what is counted at a tree itself and in its parts,
unless the tree is passed over.  In scripts an operation is counted by the text of its operator, in
which nothing is nested, since operators are tokens.
-/

namespace ArchReview

namespace Tree

variable {κ : Type}

/-! ### Replaced parts -/

/-- `u` is `t` with one child replaced by another in the same role. -/
structure Swaps (old new t u : Tree κ) : Prop where
  kind : u.kind = t.kind
  role : u.role = t.role
  part : new.role = old.role
  children : ∃ before after,
    t.children = before ++ old :: after ∧ u.children = before ++ new :: after

/-- `u` is `t` with its body replaced. -/
structure Rebodied (old new t u : Tree κ) : Prop extends Swaps old new t u where
  old_body : t.child? .body = some old
  new_body : u.child? .body = some new

/-- `u` is `t` with the tree `old` in it replaced by `new`.  The trees above `old` are `way`, the
outermost first. -/
inductive Replaced (old new : Tree κ) : List (Tree κ) → Tree κ → Tree κ → Prop where
  | here : Replaced old new [] old new
  | part {way : List (Tree κ)} {t u child child' : Tree κ}
      (h : Replaced old new way child child') (hswaps : Swaps child child' t u) :
      Replaced old new (t :: way) t u

/-- `u` is the function `t` with the body `b` of a tree `d` replaced by `e`.  The tree `d` is nested
in the body of `t`, below the trees `way`. -/
structure NestedRebodied (d b e : Tree κ) (way : List (Tree κ)) (t u : Tree κ) : Prop where
  replaced : ∃ body body' d', Rebodied body body' t u ∧
    Replaced d d' (body :: way) body body' ∧ Rebodied b e d d'

theorem Swaps.mem_children {old new t u : Tree κ} (h : Swaps old new t u) : old ∈ t.children := by
  obtain ⟨before, after, ht, -⟩ := h.children
  rw [ht]
  exact List.mem_append_right _ List.mem_cons_self

theorem Replaced.mem_way {old new t u : Tree κ} {way : List (Tree κ)}
    (h : Replaced old new way t u) : t ∈ old :: way := by
  cases h with
  | here => exact List.mem_cons_self
  | part _ _ => exact List.mem_cons_of_mem _ List.mem_cons_self

theorem role_of_child? {r : Role} {t part : Tree κ} (h : t.child? r = some part) :
    part.role = r := by
  have found := List.find?_some h
  exact eq_of_beq found

/-- The child in another role is not touched. -/
theorem Swaps.child?_eq {old new t u : Tree κ} (h : Swaps old new t u) {r : Role}
    (hr : old.role ≠ r) : u.child? r = t.child? r := by
  obtain ⟨before, after, ht, hu⟩ := h.children
  have hnew : new.role ≠ r := h.part ▸ hr
  simp [child?, ht, hu, List.find?_append, hr, hnew]

theorem swaps_last {kind : κ} {role : Role} {first old new : Tree κ} (h : new.role = old.role) :
    Swaps old new (.node kind role first [old]) (.node kind role first [new]) :=
  ⟨rfl, rfl, h, [first], [], rfl, rfl⟩

theorem Swaps.children_ne_nil {old new t u : Tree κ} (h : Swaps old new t u) :
    t.children ≠ [] ∧ u.children ≠ [] := by
  obtain ⟨before, after, ht, hu⟩ := h.children
  simp [ht, hu]

/-- The trees above the one that is replaced are in the whole and have parts. -/
theorem Replaced.mem_subtrees {old new t u : Tree κ} {way : List (Tree κ)}
    (h : Replaced old new way t u) :
    old ∈ t.subtrees ∧ ∀ p ∈ way, p ∈ t.subtrees ∧ p.children ≠ [] := by
  induction h with
  | here => exact ⟨self_mem_subtrees _, List.forall_mem_nil _⟩
  | part h hswaps ih =>
      have up := subtrees_subset_of_mem_children hswaps.mem_children
      obtain ⟨hold, hway⟩ := ih
      exact ⟨up hold, List.forall_mem_cons.mpr ⟨⟨self_mem_subtrees _, hswaps.children_ne_nil.1⟩,
        fun p hp => ⟨up (hway p hp).1, (hway p hp).2⟩⟩⟩

theorem NestedRebodied.mem_subtrees {d b e t u : Tree κ} {way : List (Tree κ)}
    (h : NestedRebodied d b e way t u) : ∀ p ∈ d :: way, p ∈ t.subtrees ∧ p.children ≠ [] := by
  obtain ⟨body, body', d', houter, hreplaced, hinner⟩ := h.replaced
  have up := subtrees_subset_of_mem_children houter.mem_children
  obtain ⟨hd, hway⟩ := hreplaced.mem_subtrees
  refine List.forall_mem_cons.mpr ⟨⟨up hd, hinner.children_ne_nil.1⟩, fun p hp => ?_⟩
  obtain ⟨hmem, hparts⟩ := hway p (List.mem_cons_of_mem body hp)
  exact ⟨up hmem, hparts⟩

/-! ### Bodies can be replaced -/

theorem exists_swaps {old new t : Tree κ} {before after : List (Tree κ)}
    (ht : t.children = before ++ old :: after) (hrole : new.role = old.role) :
    ∃ u, Swaps old new t u ∧ u.children = before ++ new :: after := by
  cases t with
  | leaf => exact absurd ht.symm (List.append_ne_nil_of_right_ne_nil _ (List.cons_ne_nil _ _))
  | node kind role first rest =>
      cases before with
      | nil => exact ⟨.node kind role new after, ⟨rfl, rfl, hrole, [], after, ht, rfl⟩, rfl⟩
      | cons part before =>
          exact ⟨.node kind role part (before ++ new :: after),
            ⟨rfl, rfl, hrole, part :: before, after, ht, rfl⟩, rfl⟩

theorem exists_rebodied {old new t : Tree κ} (h : t.child? .body = some old)
    (hnew : new.role = .body) : ∃ u, Rebodied old new t u := by
  obtain ⟨hrole, before, after, ht, hbefore⟩ := List.find?_eq_some_iff_append.mp h
  obtain ⟨u, hswaps, hu⟩ := exists_swaps ht (hnew.trans (eq_of_beq hrole).symm)
  refine ⟨u, hswaps, h, ?_⟩
  exact List.find?_eq_some_iff_append.mpr ⟨beq_iff_eq.mpr hnew, before, after, hu, hbefore⟩

/-- The body of what stands directly in the body of a function can be replaced. -/
theorem exists_nestedRebodied {t body d b e : Tree κ} (hbody : t.child? .body = some body)
    (hd : d ∈ body.children) (hb : d.child? .body = some b) (he : e.role = .body) :
    ∃ u, NestedRebodied d b e [] t u := by
  obtain ⟨d', hinner⟩ := exists_rebodied hb he
  obtain ⟨before, after, hparts⟩ := List.append_of_mem hd
  obtain ⟨body', hswaps, -⟩ := exists_swaps hparts hinner.role
  obtain ⟨u, houter⟩ := exists_rebodied hbody (hswaps.role.trans (role_of_child? hbody))
  exact ⟨u, body, body', d', houter, .part .here hswaps, hinner⟩

end Tree

open ArchReview.Tree

/-! ### Tallies -/

/-- A count over several trees, tree by tree. -/
theorem sum_of_cons {κ : Type} {count : Tree κ → Nat} {countAll : List (Tree κ) → Nat}
    (hnil : countAll [] = 0) (hcons : ∀ t ts, countAll (t :: ts) = count t + countAll ts)
    (ts : List (Tree κ)) : countAll ts = (ts.map count).sum := by
  induction ts with
  | nil => exact hnil
  | cons t ts ih => rw [hcons, ih, List.map_cons, List.sum_cons]

/-- A count over trees: of each tree by itself and of its parts.  Some trees are passed over. -/
structure Tally (κ : Type) where
  skips : κ → Bool
  /-- Roles in which the text of a part counts for the tree around it. -/
  reads : Role → Prop
  own : Tree κ → Nat
  count : Tree κ → Nat
  count_eq (t : Tree κ) : count t = if skips t.kind then 0 else own t + (t.children.map count).sum
  own_swaps {old new t u : Tree κ} (h : Swaps old new t u) (hreads : ¬ reads old.role) :
    own u = own t

namespace Tally

variable {κ : Type} (T : Tally κ) {old new t u : Tree κ} {way : List (Tree κ)}

/-- The count of the parts of a tree. -/
def inside (t : Tree κ) : Nat := (t.children.map T.count).sum

theorem inside_swaps (h : Swaps old new t u) :
    T.inside t + T.count new = T.inside u + T.count old := by
  obtain ⟨before, after, ht, hu⟩ := h.children
  simp only [inside, ht, hu, List.map_append, List.map_cons, List.sum_append, List.sum_cons]
  omega

theorem count_of_skips (h : T.skips t.kind = true) : T.count t = 0 := by
  rw [T.count_eq, if_pos h]

/-- A swapped part changes the count of a tree that is not passed over by as much as it changes
itself. -/
theorem count_swaps (h : Swaps old new t u) (hskips : T.skips t.kind = false)
    (hreads : ¬ T.reads old.role) : T.count t + T.count new = T.count u + T.count old := by
  have inside := T.inside_swaps h
  have skipped : ¬ T.skips t.kind = true := by simp [hskips]
  rw [T.count_eq t, T.count_eq u, h.kind, if_neg skipped, if_neg skipped, T.own_swaps h hreads]
  rw [Tally.inside, Tally.inside] at inside
  omega

/-- Where nothing on the way is passed over, a change is passed on to the top. -/
theorem count_replaced (h : Replaced old new way t u)
    (hreads : ∀ p ∈ old :: way, ¬ T.reads p.role) (hskips : ∀ p ∈ way, T.skips p.kind = false) :
    T.count t + T.count new = T.count u + T.count old := by
  induction h with
  | here => exact Nat.add_comm _ _
  | @part way t u child child' h hswaps ih =>
      have hreads' : ∀ p ∈ old :: way, ¬ T.reads p.role := fun p hp =>
        hreads p (List.mem_cons.mpr ((List.mem_cons.mp hp).imp_right (List.mem_cons_of_mem t)))
      obtain ⟨hskip, hskips⟩ := List.forall_mem_cons.mp hskips
      have up := T.count_swaps hswaps hskip (hreads' child h.mem_way)
      have down := ih hreads' hskips
      omega

/-- Where something on the way is passed over, a change is not seen from above. -/
theorem count_replaced_of_skips (h : Replaced old new way t u)
    (hreads : ∀ p ∈ old :: way, ¬ T.reads p.role) (hskips : ∃ p ∈ way, T.skips p.kind = true) :
    T.count u = T.count t := by
  induction h with
  | here => obtain ⟨p, hp, -⟩ := hskips; cases hp
  | @part way t u child child' h hswaps ih =>
      have hreads' : ∀ p ∈ old :: way, ¬ T.reads p.role := fun p hp =>
        hreads p (List.mem_cons.mpr ((List.mem_cons.mp hp).imp_right (List.mem_cons_of_mem t)))
      cases hskip : T.skips t.kind with
      | true => rw [T.count_of_skips hskip, T.count_of_skips (hswaps.kind ▸ hskip)]
      | false =>
          obtain ⟨p, hp, hskipped⟩ := hskips
          have below : p ∈ way := by
            rcases List.mem_cons.mp hp with rfl | hp
            · rw [hskip] at hskipped
              cases hskipped
            · exact hp
          have up := T.count_swaps hswaps hskip (hreads' child h.mem_way)
          have down := ih hreads' ⟨p, below, hskipped⟩
          omega

/-- The tree that is changed, or one above it, is passed over. -/
def Hides (trees : List (Tree κ)) : Prop := ∃ p ∈ trees, T.skips p.kind = true

/-- **A nested body**: what counts in it is seen in the body of the function around it exactly if
nothing in between is passed over. -/
theorem inside_nested {d b e body body' : Tree κ} (hbody : ¬ T.reads .body)
    (h : ∃ d', Replaced d d' (body :: way) body body' ∧ Rebodied b e d d')
    (hreads : ∀ p ∈ d :: way, ¬ T.reads p.role) :
    (T.Hides (d :: way) → T.inside body' = T.inside body) ∧
      (¬ T.Hides (d :: way) → T.inside body + T.count e = T.inside body' + T.count b) := by
  obtain ⟨d', hreplaced, hrebodied⟩ := h
  cases hreplaced with
  | part hreplaced hswaps =>
      have top := T.inside_swaps hswaps
      constructor
      · rintro ⟨p, hp, hskips⟩
        rcases List.mem_cons.mp hp with rfl | hp
        · -- the changed tree itself is passed over before and after
          have before := T.count_of_skips hskips
          have after : T.count d' = 0 := T.count_of_skips (hrebodied.kind ▸ hskips)
          by_cases hway : T.Hides way
          · have := T.count_replaced_of_skips hreplaced hreads hway
            omega
          · have visible : ∀ p ∈ way, T.skips p.kind = false := fun p hp =>
              Bool.eq_false_iff.mpr fun hskips => hway ⟨p, hp, hskips⟩
            have := T.count_replaced hreplaced hreads visible
            omega
        · have := T.count_replaced_of_skips hreplaced hreads ⟨p, hp, hskips⟩
          omega
      · intro hvisible
        have visible : ∀ p ∈ d :: way, T.skips p.kind = false := fun p hp =>
          Bool.eq_false_iff.mpr fun hskips => hvisible ⟨p, hp, hskips⟩
        obtain ⟨hd, hway⟩ := List.forall_mem_cons.mp visible
        have hrole : ¬ T.reads b.role := by
          rw [role_of_child? hrebodied.old_body]
          exact hbody
        have inner := T.count_swaps hrebodied.toSwaps hd hrole
        have outer := T.count_replaced hreplaced hreads hway
        omega

end Tally

/-! ### Python -/

namespace Python

theorem branchesAll_eq (ts : List Tree) : branchesAll ts = (ts.map branches).sum :=
  sum_of_cons rfl (fun _ _ => rfl) ts

/-- The branching constructs of a Python body. -/
def branchTally : Tally Kind where
  skips k := k == .functionDefinition || k == .classDefinition
  reads _ := False
  own t := if t.children.isEmpty then 0 else t.kind.branches
  count := branches
  count_eq t := by
    cases t with
    | leaf kind role gap text line => simp [branches, Tree.children]
    | node kind role first rest =>
        rw [branches, branchesAll_eq]
        simp only [Tree.kind, Tree.children, List.isEmpty_cons, List.map_cons, List.sum_cons]
        split
        · rfl
        · rw [Nat.add_assoc]
          rfl
  own_swaps h _ := by
    obtain ⟨ht, hu⟩ := h.children_ne_nil
    simp [h.kind, ht, hu]

theorem complexity_eq (scope : Scope) {t body : Tree} (h : t.child? .body = some body) :
    (functionRecord scope t).complexity = 1 + branchTally.inside body := by
  simp only [functionRecord, h, Tally.inside, branchTally, ← branchesAll_eq]
  rfl

end Python

/-! ### Scripts -/

namespace Script

theorem branchesAll_eq (ts : List Tree) : branchesAll ts = (ts.map branches).sum :=
  sum_of_cons rfl (fun _ _ => rfl) ts

/-- The branching constructs of the body of a script's function.  Whether an operation branches is
read off its operator. -/
def branchTally : Tally Kind where
  skips k := [.functionDeclaration, .classDeclaration, .classExpression].contains k
  reads r := r = .operator
  own t := if t.children.isEmpty then 0 else ownBranches t
  count := branches
  count_eq t := by
    cases t with
    | leaf kind role gap text line => simp [branches, Tree.children]
    | node kind role first rest =>
        rw [branches, branchesAll_eq]
        simp only [Tree.kind, Tree.children, List.isEmpty_cons, List.map_cons, List.sum_cons]
        split
        · rfl
        · rw [Nat.add_assoc]
          rfl
  own_swaps h hreads := by
    obtain ⟨ht, hu⟩ := h.children_ne_nil
    have same : roleText .operator _ = roleText .operator _ :=
      congrArg (fun o => (Option.map Tree.text o).getD "") (h.child?_eq hreads)
    simp [ownBranches, h.kind, ht, hu, same]

theorem complexity_eq (name : String) {t body : Tree} (h : t.child? .body = some body) :
    (functionRecord name t).complexity = 1 + branchTally.inside body := by
  simp only [functionRecord, h, Tally.inside, branchTally, ← branchesAll_eq]
  rfl

end Script

theorem Script.neat_of_mem_parse {dialect : Script.Dialect} {source : List Char}
    {forest : Script.Forest} (h : Script.parse dialect source = .ok forest) :
    ∀ t ∈ subtreesAll forest, Script.Neat t := by
  intro t ht
  obtain ⟨whole, hwhole, hin⟩ := mem_subtreesAll.mp ht
  exact ((Script.reads_of_parse h).1 whole hwhole).of_mem hin

/-! ### Nested declarations -/

/-- **Complexity and nested bodies.**  The body of a nested Python definition does not count for the
function around it.  The body of a tree nested in a function of a script counts for it exactly if no
declaration that is passed over stands in between.  Of the trees of a script it is needed that their
operators are tokens, as they are in every script that is read. -/
theorem complexity_nested (scope : Python.Scope) (name : String) :
    (∀ (d b e t u : Python.Tree) (way : List Python.Tree), NestedRebodied d b e way t u →
      (d.kind = .functionDefinition ∨ d.kind = .classDefinition) →
        (Python.functionRecord scope u).complexity = (Python.functionRecord scope t).complexity) ∧
    (∀ (d b e t u : Script.Tree) (way : List Script.Tree),
      Script.Neat t → NestedRebodied d b e way t u →
        (Script.branchTally.Hides (d :: way) →
          (Script.functionRecord name u).complexity =
            (Script.functionRecord name t).complexity) ∧
        (¬ Script.branchTally.Hides (d :: way) →
          (Script.functionRecord name t).complexity + Script.branches e =
            (Script.functionRecord name u).complexity + Script.branches b)) ∧
    ∀ (dialect : Script.Dialect) (source : List Char) (forest : Script.Forest),
      Script.parse dialect source = .ok forest → ∀ t ∈ subtreesAll forest, Script.Neat t := by
  refine ⟨fun d b e t u way h hkind => ?_, fun d b e t u way hneat h => ?_,
    fun dialect source forest => Script.neat_of_mem_parse⟩
  · obtain ⟨body, body', d', houter, hreplaced, hinner⟩ := h.replaced
    have hidden : Python.branchTally.Hides (d :: way) := by
      refine ⟨d, List.mem_cons_self, ?_⟩
      rcases hkind with hkind | hkind <;> rw [hkind] <;> rfl
    obtain ⟨same, -⟩ := Python.branchTally.inside_nested not_false ⟨d', hreplaced, hinner⟩
      fun _ _ => not_false
    rw [Python.complexity_eq scope houter.old_body, Python.complexity_eq scope houter.new_body,
      same hidden]
  · obtain ⟨body, body', d', houter, hreplaced, hinner⟩ := h.replaced
    -- what is replaced has parts, so it is in no operator
    have unread : ∀ p ∈ d :: way, ¬ Script.branchTally.reads p.role := fun p hp hoperator => by
      obtain ⟨hmem, hparts⟩ := h.mem_subtrees p hp
      exact hparts (hneat p hmem hoperator)
    obtain ⟨same, changed⟩ := Script.branchTally.inside_nested (by rintro ⟨⟩)
      ⟨d', hreplaced, hinner⟩ unread
    rw [Script.complexity_eq name houter.old_body, Script.complexity_eq name houter.new_body]
    refine ⟨fun hidden => by rw [same hidden], fun visible => ?_⟩
    have counted : Script.branchTally.inside body + Script.branches e =
      Script.branchTally.inside body' + Script.branches b := changed visible
    omega

/-- A declaration with a given body. -/
def Python.declared (kind : Python.Kind) (body : Python.Tree) : Python.Tree :=
  .node kind .plain (.leaf .symbol .plain "" "def" 1) [body]

/-- A body with the given parts. -/
def Python.bodyOf (parts : List Python.Tree) : Python.Tree :=
  .node .block .body (.leaf .symbol .plain "" "pass" 1) parts

/-- A generator that branches, in a function. -/
def Script.nestedGenerator : String := "function f() \x7b function* g() \x7b if (a) b(); \x7d \x7d"

def Script.emptyBody : Script.Tree :=
  .node .block .body (.leaf .symbol .plain "" "\x7b" 1) [.leaf .symbol .plain "" "\x7d" 1]

/-- A function with a class whose body branches, and one with such a generator: emptying the class
changes nothing, emptying the generator takes a branch off. -/
theorem complexity_nested_emptied :
    (let inner := Python.bodyOf [Python.declared .ifStatement (Python.bodyOf [])]
     let function body := Python.declared .functionDefinition
       (Python.bodyOf [Python.declared .classDefinition body])
     NestedRebodied (Python.declared .classDefinition inner) inner (Python.bodyOf []) []
         (function inner) (function (Python.bodyOf [])) ∧
       (Python.functionRecord {} (function (Python.bodyOf []))).complexity =
         (Python.functionRecord {} (function inner)).complexity) ∧
    ∃ forest t u d b, Script.parse .plain Script.nestedGenerator.toList = .ok forest ∧
      t ∈ subtreesAll forest ∧ Script.Neat t ∧ d.kind = .generatorDeclaration ∧
      NestedRebodied d b Script.emptyBody [] t u ∧
      (Script.functionRecord "f" t).complexity = (Script.functionRecord "f" u).complexity + 1 := by
  obtain ⟨python, script, read⟩ := complexity_nested {} "f"
  constructor
  · intro inner function
    have nested : NestedRebodied (Python.declared .classDefinition inner) inner (Python.bodyOf [])
        [] (function inner) (function (Python.bodyOf [])) :=
      ⟨_, Python.bodyOf [Python.declared .classDefinition (Python.bodyOf [])],
        Python.declared .classDefinition (Python.bodyOf []), ⟨swaps_last rfl, rfl, rfl⟩,
        .part .here (swaps_last rfl), ⟨swaps_last rfl, rfl, rfl⟩⟩
    exact ⟨nested, python _ _ _ _ _ _ nested (Or.inr rfl)⟩
  · -- the way down to the body of the generator
    have found : (Script.parse .plain Script.nestedGenerator.toList).toOption.any (fun forest =>
        decide ((forest.head?.bind fun t => (t.child? .body).bind fun body =>
          (body.children.find? fun d => d.kind == .generatorDeclaration).bind fun d =>
            (d.child? .body).map Script.branches) = some 1)) = true := by
      decide +kernel
    obtain ⟨forest, hparse, hway⟩ := exists_ok_of_any found
    obtain ⟨t, ht, hway⟩ := Option.bind_eq_some_iff.mp hway
    obtain ⟨body, hbody, hway⟩ := Option.bind_eq_some_iff.mp hway
    obtain ⟨d, hd, hway⟩ := Option.bind_eq_some_iff.mp hway
    obtain ⟨b, hb, hbranches⟩ := Option.map_eq_some_iff.mp hway
    have hkind : (d.kind == .generatorDeclaration) = true :=
      List.find?_some (p := fun d : Script.Tree => d.kind == .generatorDeclaration) hd
    have hmem : t ∈ subtreesAll forest :=
      mem_subtreesAll.mpr ⟨t, List.mem_of_head? ht, self_mem_subtrees t⟩
    obtain ⟨u, nested⟩ := exists_nestedRebodied (e := Script.emptyBody) hbody
      (List.mem_of_find?_eq_some hd) hb rfl
    have visible : ¬ Script.branchTally.Hides [d] := by
      rintro ⟨p, hp, hskips⟩
      rw [List.mem_singleton.mp hp, eq_of_beq hkind] at hskips
      cases hskips
    have counted := (script _ _ _ _ _ _ (read _ _ _ hparse t hmem) nested).2 visible
    rw [hbranches] at counted
    exact ⟨forest, t, u, d, b, hparse, hmem, read _ _ _ hparse t hmem, eq_of_beq hkind, nested,
      counted⟩

namespace Script

/-- The functions of a script with their complexity. -/
def complexities (text : String) : Option (List (String × Nat)) :=
  (outline ⟨"a.ts"⟩ .typeScript text).toOption.map fun o =>
    o.functions.map fun f => (f.name, f.complexity)

/-- A branch in a generator or in an abstract class counts for the function around it. -/
theorem complexity_counts_generator :
    complexities "function f() \x7b function* g() \x7b if (a) b(); \x7d \x7d" = some [("f", 2)] ∧
    complexities "function f() \x7b function* g() \x7b \x7d \x7d" = some [("f", 1)] ∧
    complexities "function f() \x7b abstract class A \x7b m() \x7b if (a) b(); \x7d \x7d \x7d" =
      some [("f", 2)] ∧
    complexities "function f() \x7b abstract class A \x7b \x7d \x7d" = some [("f", 1)] := by
  decide +kernel

end Script

end ArchReview

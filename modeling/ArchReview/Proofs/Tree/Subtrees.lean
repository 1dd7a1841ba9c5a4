import ArchReview.Proofs.Tree.Walk

/-!
# The trees inside a tree

`subtrees` lists all the trees in a tree, parts before wholes.  `outermost` lists only those of a
sort that no other of that sort stands around.

Every tree of a sort is outermost in exactly one place: in the whole forest, or among the parts of
the nearest tree of that sort around it (`filter_subtreesAll_perm`).
-/

namespace ArchReview.Tree

variable {κ : Type}

mutual

/-- All the trees in a tree, parts before wholes. -/
def subtrees : Tree κ → List (Tree κ)
  | leaf kind role gap text line => [leaf kind role gap text line]
  | node kind role first rest    =>
    subtrees first ++ subtreesAll rest ++ [node kind role first rest]

def subtreesAll : List (Tree κ) → List (Tree κ)
  | []      => []
  | t :: ts => subtrees t ++ subtreesAll ts

end

mutual

/-- The trees of a sort in a tree that no other of that sort stands around. -/
def outermost (p : Tree κ → Bool) : Tree κ → List (Tree κ)
  | leaf kind role gap text line =>
    if p (leaf kind role gap text line) then [leaf kind role gap text line] else []
  | node kind role first rest    =>
    if p (node kind role first rest) then [node kind role first rest]
    else outermost p first ++ outermostAll p rest

def outermostAll (p : Tree κ → Bool) : List (Tree κ) → List (Tree κ)
  | []      => []
  | t :: ts => outermost p t ++ outermostAll p ts

end

theorem subtrees_eq (t : Tree κ) : t.subtrees = subtreesAll t.children ++ [t] := by
  cases t <;> rfl

theorem outermost_eq (p : Tree κ → Bool) (t : Tree κ) :
    t.outermost p = if p t then [t] else outermostAll p t.children := by
  cases t <;> rfl

theorem mem_subtreesAll {t : Tree κ} {forest : List (Tree κ)} :
    t ∈ subtreesAll forest ↔ ∃ u ∈ forest, t ∈ u.subtrees := by
  induction forest with
  | nil => simp [subtreesAll]
  | cons u forest ih => simp [subtreesAll, ih]

theorem self_mem_subtrees (t : Tree κ) : t ∈ t.subtrees := by
  rw [subtrees_eq]
  exact List.mem_append_right _ (List.mem_singleton_self t)

theorem subtrees_subset_of_mem_children {t part : Tree κ} (h : part ∈ t.children) :
    part.subtrees ⊆ t.subtrees := by
  intro u hu
  rw [subtrees_eq]
  exact List.mem_append_left _ (mem_subtreesAll.mpr ⟨part, h, hu⟩)

theorem subtrees_subset {t u : Tree κ} (h : u ∈ t.subtrees) : u.subtrees ⊆ t.subtrees := by
  induction t using induction_parts with
  | step t ih =>
      rw [subtrees_eq] at h
      rcases List.mem_append.mp h with h | h
      · obtain ⟨part, hpart, hu⟩ := mem_subtreesAll.mp h
        exact List.Subset.trans (ih part hpart hu) (subtrees_subset_of_mem_children hpart)
      · rw [List.mem_singleton.mp h]
        exact List.Subset.refl _

/-! ### What holds in every place -/

/-- Something holds of every tree in a tree. -/
def Everywhere (P : Tree κ → Prop) (t : Tree κ) : Prop := ∀ u ∈ t.subtrees, P u

theorem everywhere_iff {P : Tree κ → Prop} {t : Tree κ} :
    t.Everywhere P ↔ P t ∧ ∀ part ∈ t.children, part.Everywhere P := by
  simp only [Everywhere, subtrees_eq t, List.mem_append, List.mem_singleton, mem_subtreesAll]
  grind

theorem Everywhere.of_mem {P : Tree κ → Prop} {t u : Tree κ} (h : t.Everywhere P)
    (hu : u ∈ t.subtrees) : u.Everywhere P :=
  fun v hv => h v (subtrees_subset hu hv)

/-! ### Each in one place -/

variable (p : Tree κ → Bool)

/-- The trees of a sort whose nearest one around them, of that sort, is `t`. -/
def nearest (t : Tree κ) : List (Tree κ) := outermostAll p t.children

theorem filter_subtreesAll_perm_of_mem {forest : List (Tree κ)}
    (h : ∀ t ∈ forest,
      (t.subtrees.filter p).Perm (t.outermost p ++ (t.subtrees.filter p).flatMap (nearest p))) :
    ((subtreesAll forest).filter p).Perm
      (outermostAll p forest ++ ((subtreesAll forest).filter p).flatMap (nearest p)) := by
  induction forest with
  | nil => exact .refl _
  | cons t ts ih =>
      obtain ⟨ht, hts⟩ := List.forall_mem_cons.mp h
      simp only [subtreesAll, outermostAll, List.filter_append, List.flatMap_append]
      refine (ht.append (ih hts)).trans ?_
      rw [List.append_assoc, List.append_assoc]
      exact (List.perm_append_comm_assoc _ _ _).append_left _

theorem filter_subtrees_perm (t : Tree κ) :
    (t.subtrees.filter p).Perm (t.outermost p ++ (t.subtrees.filter p).flatMap (nearest p)) := by
  induction t using induction_parts with
  | step t ih =>
      have parts := filter_subtreesAll_perm_of_mem p ih
      cases h : p t with
      | true =>
          -- what was outermost in the parts is now nearest to the tree itself
          have here : [t].filter p = [t] := List.filter_cons_of_pos h
          simp only [subtrees_eq t, outermost_eq p t, h, if_true, List.filter_append, here,
            List.flatMap_append, List.flatMap_singleton]
          exact ((parts.trans List.perm_append_comm).append_right [t]).trans List.perm_append_comm
      | false => simpa [subtrees_eq t, outermost_eq p t, h] using parts

/-- **Every tree of a sort is outermost in one place**: in the whole forest, or below one tree of
the sort. -/
theorem filter_subtreesAll_perm (forest : List (Tree κ)) :
    ((subtreesAll forest).filter p).Perm
      (outermostAll p forest ++ ((subtreesAll forest).filter p).flatMap (nearest p)) :=
  filter_subtreesAll_perm_of_mem p fun t _ => filter_subtrees_perm p t

end ArchReview.Tree

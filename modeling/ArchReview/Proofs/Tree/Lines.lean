import ArchReview.Proofs.Path.Normal
import ArchReview.Proofs.Tree.Places

/-!
# Lines of a syntax tree

The leaves of a part of a tree are leaves of the tree, in the same order
(`leaves_sublist_of_mem_children`).  Where no leaf starts before the one in front of it ends
(`InOrder`), the lines of a part lie within those of the tree (`InOrder.within_of_mem_children`):
lines nest as the parts of a tree do.

**Faithful trees** (`inOrder_of_faithful`, `within_of_faithful`).  The trees of a forest that stands
at the start of a text have their leaves in order, and their lines are lines of the text.
-/

namespace ArchReview

/-! ### Lines of a text -/

namespace Text

theorem length_splitWhere (p : Char → Bool) :
    ∀ s : List Char, (splitWhere p s).length = s.countP p + 1
  | [] => rfl
  | c :: s => by
      have ih := length_splitWhere p s
      rw [splitWhere_cons, List.countP_cons]
      split
      · simp [ih]
      · cases e : splitWhere p s with
        | nil =>
            rw [e] at ih
            cases ih
        | cons piece ps =>
            rw [e] at ih
            simpa using ih

/-- A character behind a text ends its last piece or belongs to it. -/
theorem splitWhere_concat (p : Char → Bool) (c : Char) (s : List Char) :
    ∃ front last, splitWhere p s = front ++ [last] ∧
      splitWhere p (s ++ [c]) = if p c then front ++ [last, []] else front ++ [last ++ [c]] := by
  induction s with
  | nil => exact ⟨[], [], rfl, by simp [splitWhere]⟩
  | cons a s ih =>
      obtain ⟨front, last, hs, hc⟩ := ih
      simp only [List.cons_append, splitWhere_cons, hs, hc]
      by_cases ha : p a = true
      · exact ⟨[] :: front, last, by simp [ha], by by_cases hpc : p c = true <;> simp [ha, hpc]⟩
      · cases front with
        | nil =>
            refine ⟨[], a :: last, by simp [ha], ?_⟩
            by_cases hpc : p c = true <;> simp [ha, hpc]
        | cons piece front =>
            exact ⟨(a :: piece) :: front, last, by simp [ha],
              by by_cases hpc : p c = true <;> simp [ha, hpc]⟩

/-- A text has one line more than there are line breaks before its last character. -/
theorem length_lines_concat (s : List Char) (c : Char) :
    (lines (s ++ [c])).length = s.count '\n' + 1 := by
  obtain ⟨front, last, hs, hc⟩ := splitWhere_concat (· == '\n') c s
  have hfront : front.length = s.count '\n' := by
    have h := length_splitWhere (· == '\n') s
    rw [hs] at h
    simpa [List.count] using h
  unfold lines
  rw [hc]
  by_cases hbreak : (c == '\n') = true <;> simp [hbreak, ← hfront]

theorem lineCount_eq {text : String} (h : text.toList ≠ []) :
    lineCount text = text.toList.dropLast.count '\n' + 1 := by
  unfold lineCount
  conv_lhs => rw [← List.dropLast_append_getLast h]
  exact length_lines_concat _ _

end Text

theorem Leaf.line_le_lastLine (l : Leaf) : l.line ≤ l.lastLine := Nat.le_add_right _ _

theorem Leaf.lastLine_le (l : Leaf) : l.lastLine ≤ l.line + breaks l.text :=
  Nat.add_le_add_left ((List.dropLast_sublist _).count_le _) _

namespace Tree

variable {κ : Type} {t : Tree κ}

/-! ### Leaves of the parts -/

/-- **Every tree has a leaf.** -/
theorem leaves_ne_nil : ∀ t : Tree κ, t.leaves ≠ []
  | leaf .. => List.cons_ne_nil _ _
  | node k r first rest => by
      rw [leaves_node]
      exact List.append_ne_nil_of_left_ne_nil (leaves_ne_nil first) _

theorem leaves_sublist_forestLeaves {ts : List (Tree κ)} (h : t ∈ ts) :
    t.leaves.Sublist (forestLeaves ts) := by
  induction ts with
  | nil => cases h
  | cons u ts ih =>
      rw [forestLeaves_cons]
      rcases List.mem_cons.mp h with rfl | h
      · exact List.sublist_append_left _ _
      · exact (ih h).trans (List.sublist_append_right _ _)

theorem leaves_sublist_of_mem_children {part : Tree κ} (h : part ∈ t.children) :
    part.leaves.Sublist t.leaves := by
  cases t with
  | leaf => cases h
  | node k r first rest =>
      rw [leaves_node, ← forestLeaves_cons]
      exact leaves_sublist_forestLeaves h

theorem mem_children_of_child? {r : Role} {part : Tree κ} (h : t.child? r = some part) :
    part ∈ t.children := List.mem_of_find?_eq_some h

/-! ### Lines in order -/

/-- The lines of a tree are those of two of its leaves. -/
theorem exists_first_last (t : Tree κ) :
    ∃ first ∈ t.leaves, ∃ last ∈ t.leaves,
      t.firstLine = first.line ∧ t.lastLine = last.lastLine := by
  obtain ⟨first, rest, hfirst⟩ := List.exists_cons_of_ne_nil t.leaves_ne_nil
  have hlast := List.getLast?_eq_some_getLast t.leaves_ne_nil
  exact ⟨first, hfirst ▸ List.mem_cons_self, _, List.getLast_mem t.leaves_ne_nil,
    by rw [firstLine, hfirst], by rw [lastLine, hlast]⟩

/-- The lines from one line to another hold those of a tree. -/
def Within (lo hi : Nat) (t : Tree κ) : Prop := lo ≤ t.firstLine ∧ t.lastLine ≤ hi

/-- No leaf starts before the one in front of it ends. -/
def InOrder (t : Tree κ) : Prop := t.leaves.Pairwise fun l m => l.lastLine ≤ m.line

namespace InOrder

variable (h : t.InOrder)
include h

theorem of_mem_children {part : Tree κ} (hpart : part ∈ t.children) : part.InOrder :=
  h.sublist (leaves_sublist_of_mem_children hpart)

theorem firstLine_le {l : Leaf} (hl : l ∈ t.leaves) : t.firstLine ≤ l.line := by
  obtain ⟨first, rest, hfirst⟩ := List.exists_cons_of_ne_nil t.leaves_ne_nil
  rw [InOrder, hfirst] at h
  rw [hfirst] at hl
  rw [firstLine, hfirst]
  rcases List.mem_cons.mp hl with rfl | hl
  · exact Nat.le_refl _
  · exact Nat.le_trans first.line_le_lastLine (List.rel_of_pairwise_cons h hl)

theorem le_lastLine {l : Leaf} (hl : l ∈ t.leaves) : l.lastLine ≤ t.lastLine := by
  have hsplit := List.dropLast_append_getLast t.leaves_ne_nil
  have hlast : t.lastLine = (t.leaves.getLast t.leaves_ne_nil).lastLine := by
    rw [lastLine, List.getLast?_eq_some_getLast t.leaves_ne_nil]
  rw [InOrder, ← hsplit] at h
  rw [← hsplit] at hl
  rw [hlast]
  rcases List.mem_append.mp hl with hl | hl
  · exact Nat.le_trans ((List.pairwise_append.mp h).2.2 l hl _ List.mem_cons_self)
      (Leaf.line_le_lastLine _)
  · exact Nat.le_of_eq (congrArg Leaf.lastLine (List.mem_singleton.mp hl))

/-- **A tree does not end before it starts.** -/
theorem firstLine_le_lastLine : t.firstLine ≤ t.lastLine := by
  obtain ⟨first, hfirst, -, -, e, -⟩ := t.exists_first_last
  exact e ▸ Nat.le_trans first.line_le_lastLine (h.le_lastLine hfirst)

/-- **The lines of a part lie within those of the tree.** -/
theorem within_of_mem_children {part : Tree κ} (hpart : part ∈ t.children) :
    part.Within t.firstLine t.lastLine := by
  have hsub := (leaves_sublist_of_mem_children hpart).subset
  obtain ⟨first, hfirst, last, hlast, e, e'⟩ := part.exists_first_last
  exact ⟨e ▸ h.firstLine_le (hsub hfirst), e' ▸ h.le_lastLine (hsub hlast)⟩

end InOrder

/-! ### Faithful trees -/

theorem dropLast_sublist_dropLast {s s' : List Char} (h : s <+: s') :
    s.dropLast.Sublist s'.dropLast := by
  obtain ⟨rest, rfl⟩ := h
  by_cases hrest : rest = []
  · rw [hrest, List.append_nil]
  · rw [List.dropLast_append_of_ne_nil hrest]
    exact (List.dropLast_sublist s).trans (List.sublist_append_left _ _)

section Leaves

variable {ls : List Leaf} {s s' : Spot} (h : Leaf.behindAll ls s = some s')
include h

theorem le_line_of_behindAll : ∀ l ∈ ls, s.line ≤ l.line := by
  induction ls generalizing s with
  | nil => exact fun _ hl => absurd hl List.not_mem_nil
  | cons m ls ih =>
      obtain ⟨next, hm, hls⟩ := Option.bind_eq_some_iff.mp (Leaf.behindAll_cons ▸ h)
      obtain ⟨hline, -, -, hnext⟩ := Leaf.behind_eq_some.mp hm
      intro l hl
      rcases List.mem_cons.mp hl with rfl | hl
      · exact hline ▸ Nat.le_add_right _ _
      · have := ih hls l hl
        omega

theorem pairwise_of_behindAll : ls.Pairwise fun l m => l.lastLine ≤ m.line := by
  induction ls generalizing s with
  | nil => exact List.Pairwise.nil
  | cons l ls ih =>
      obtain ⟨next, hl, hls⟩ := Option.bind_eq_some_iff.mp (Leaf.behindAll_cons ▸ h)
      obtain ⟨-, -, -, hnext⟩ := Leaf.behind_eq_some.mp hl
      refine List.pairwise_cons.mpr ⟨fun m hm => ?_, ih hls⟩
      exact Nat.le_trans (hnext ▸ l.lastLine_le) (le_line_of_behindAll hls m hm)

/-- A leaf ends at the end of what has been read with it. -/
theorem exists_read_of_behindAll : ∀ l ∈ ls, ∃ read, read ≠ [] ∧ read <+: s.rest ∧
    l.lastLine = s.line + read.dropLast.count '\n' := by
  induction ls generalizing s with
  | nil => exact fun _ hl => absurd hl List.not_mem_nil
  | cons m ls ih =>
      obtain ⟨next, hm, hls⟩ := Option.bind_eq_some_iff.mp (Leaf.behindAll_cons ▸ h)
      obtain ⟨hline, hne, hrest, hnext⟩ := Leaf.behind_eq_some.mp hm
      have hne : m.text.toList ≠ [] := String.toList_eq_nil_iff.not.mpr hne
      intro l hl
      rcases List.mem_cons.mp hl with rfl | hl
      · refine ⟨l.gap.toList ++ l.text.toList, List.append_ne_nil_of_right_ne_nil _ hne,
          hrest ▸ List.prefix_append _ _, ?_⟩
        rw [List.dropLast_append_of_ne_nil hne, List.count_append, Leaf.lastLine, hline,
          Leaf.breaks, Nat.add_assoc]
      · obtain ⟨read, hread, hpre, hlast⟩ := ih hls l hl
        refine ⟨(m.gap.toList ++ m.text.toList) ++ read, List.append_ne_nil_of_right_ne_nil _ hread,
          hrest ▸ (List.prefix_append_right_inj _).mpr hpre, ?_⟩
        rw [List.dropLast_append_of_ne_nil hread, List.count_append, List.count_append, hlast,
          hnext, hline, Leaf.breaks, Leaf.breaks]
        omega

end Leaves

variable {forest : List (Tree κ)} {text : String} (h : faithful forest text.toList = true)
include h

/-- The leaves of trees that spell a text stand in order. -/
theorem inOrder_of_faithful (ht : t ∈ forest) : t.InOrder := by
  obtain ⟨s, hs⟩ := Option.isSome_iff_exists.mp h
  exact (pairwise_of_behindAll hs).sublist (leaves_sublist_forestLeaves ht)

/-- **The lines of trees that spell a text are lines of the text.** -/
theorem within_of_faithful (ht : t ∈ forest) : t.Within 1 (Text.lineCount text) := by
  obtain ⟨s, hs⟩ := Option.isSome_iff_exists.mp h
  have hsub := (leaves_sublist_forestLeaves ht).subset
  obtain ⟨first, hfirst, last, hlast, e, e'⟩ := t.exists_first_last
  refine ⟨e ▸ le_line_of_behindAll hs first (hsub hfirst), ?_⟩
  obtain ⟨read, hread, hpre, e''⟩ := exists_read_of_behindAll hs last (hsub hlast)
  have hne : text.toList ≠ [] := fun hnil => hread (List.prefix_nil.mp (hnil ▸ hpre))
  rw [e', e'', Text.lineCount_eq hne, Nat.add_comm]
  exact Nat.add_le_add_right ((dropLast_sublist_dropLast hpre).count_le _) 1

end Tree

end ArchReview

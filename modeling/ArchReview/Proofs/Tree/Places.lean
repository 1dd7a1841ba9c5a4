import ArchReview.Tree.Basic
import Mathlib.Data.List.Basic

/-!
# Places in a text

A leaf stands at a place in a text if its blanks and its text follow there and the line that it
states is the right one.  `behind` goes over the leaves of a forest, from the place of each to that
of the next (`behind_append`), and comes to the end of as many characters as the leaves have
(`Leaf.eq_of_behindAll`).  A forest is faithful to a text at whose start it stands.
-/

namespace ArchReview

/-- A place in a text: its line, and what follows. -/
structure Spot where
  line : Nat
  rest : List Char
  deriving DecidableEq, Repr

/-! ### Leaves -/

namespace Leaf

/-- The place behind a leaf that stands at a place. -/
def behind (l : Leaf) (s : Spot) : Option Spot :=
  if l.line = s.line + breaks l.gap ∧ l.text ≠ "" then
    (Text.stripStart? (l.gap.toList ++ l.text.toList) s.rest).map fun rest =>
      ⟨l.line + breaks l.text, rest⟩
  else none

theorem behind_eq_some {l : Leaf} {s s' : Spot} :
    l.behind s = some s' ↔ l.line = s.line + breaks l.gap ∧ l.text ≠ "" ∧
      s.rest = l.gap.toList ++ l.text.toList ++ s'.rest ∧ s'.line = l.line + breaks l.text := by
  obtain ⟨line', rest'⟩ := s'
  unfold behind
  split
  · next h =>
      simp only [Option.map_eq_some_iff, Text.stripStart?_eq_some, Spot.mk.injEq, h]
      grind
  · next h => simp_all

/-- The place behind leaves that stand one after the other. -/
def behindAll (ls : List Leaf) (s : Spot) : Option Spot := ls.foldlM (fun s l => l.behind s) s

@[simp]
theorem behindAll_nil {s : Spot} : behindAll [] s = some s := rfl

theorem behindAll_cons {l : Leaf} {ls : List Leaf} {s : Spot} :
    behindAll (l :: ls) s = (l.behind s).bind (behindAll ls) := List.foldlM_cons

theorem behindAll_append {ls ms : List Leaf} {s : Spot} :
    behindAll (ls ++ ms) s = (behindAll ls s).bind (behindAll ms) := List.foldlM_append

/-- The place behind leaves is told by their number of characters. -/
theorem eq_of_behindAll {ls : List Leaf} {s s' : Spot} (h : behindAll ls s = some s') :
    let size := ls.foldr (fun l n => l.size + n) 0
    s' = ⟨s.line + (s.rest.take size).count '\n', s.rest.drop size⟩ := by
  induction ls generalizing s with
  | nil =>
      cases h
      simp
  | cons l ls ih =>
      obtain ⟨next, hl, hls⟩ := Option.bind_eq_some_iff.mp (behindAll_cons ▸ h)
      obtain ⟨hline, -, hrest, hnext⟩ := behind_eq_some.mp hl
      have hsize : l.size = (l.gap.toList ++ l.text.toList).length := by
        rw [size, List.length_append, String.length_toList, String.length_toList]
      dsimp only [List.foldr_cons]
      rw [ih hls, hrest, hsize, List.take_length_add_append, List.drop_length_add_append, hnext,
        hline, List.count_append, List.count_append, breaks, breaks, Nat.add_assoc, Nat.add_assoc,
        Nat.add_assoc]

end Leaf

/-! ### Forests -/

namespace Tree

variable {κ : Type}

mutual

theorem leavesOnto_eq : ∀ (t : Tree κ) (tail : List Leaf), leavesOnto t tail = t.leaves ++ tail
  | leaf .., _ => rfl
  | node k r first rest, tail => by
      rw [leaves, leavesOnto, leavesOnto, leavesOnto_eq first,
        leavesOnto_eq first (forestOnto rest []), forestOnto_eq rest tail, List.append_assoc,
        forestLeaves]

theorem forestOnto_eq : ∀ (ts : List (Tree κ)) (tail : List Leaf),
    forestOnto ts tail = forestLeaves ts ++ tail
  | [], _ => rfl
  | t :: ts, tail => by
      rw [forestLeaves, forestOnto, forestOnto, leavesOnto_eq t, leavesOnto_eq t (forestOnto ts []),
        forestOnto_eq ts tail, List.append_assoc, forestLeaves]

end

theorem forestLeaves_cons (t : Tree κ) (ts : List (Tree κ)) :
    forestLeaves (t :: ts) = t.leaves ++ forestLeaves ts := leavesOnto_eq t _

theorem leaves_node (k : κ) (r : Role) (first : Tree κ) (rest : List (Tree κ)) :
    (node k r first rest).leaves = first.leaves ++ forestLeaves rest := leavesOnto_eq first _

theorem forestLeaves_append (ts us : List (Tree κ)) :
    forestLeaves (ts ++ us) = forestLeaves ts ++ forestLeaves us := by
  induction ts with
  | nil => rfl
  | cons t ts ih =>
      rw [List.cons_append, forestLeaves_cons, ih, forestLeaves_cons, List.append_assoc]

/-- Forests whose trees have the same leaves. -/
theorem forestLeaves_map {f : Tree κ → Tree κ} (h : ∀ t, (f t).leaves = t.leaves)
    (ts : List (Tree κ)) : forestLeaves (ts.map f) = forestLeaves ts := by
  induction ts with
  | nil => rfl
  | cons t ts ih => rw [List.map_cons, forestLeaves_cons, forestLeaves_cons, h, ih]

/-- The place behind the leaves of a forest that stands at a place. -/
def behind (forest : List (Tree κ)) (s : Spot) : Option Spot :=
  Leaf.behindAll (forestLeaves forest) s

@[simp]
theorem behind_nil {s : Spot} : behind ([] : List (Tree κ)) s = some s := rfl

@[simp]
theorem behind_append {forest rest : List (Tree κ)} {s : Spot} :
    behind (forest ++ rest) s = (behind forest s).bind (behind rest) := by
  rw [behind, forestLeaves_append]
  exact Leaf.behindAll_append

@[simp]
theorem behind_ite {c : Prop} [Decidable c] {forest forest' : List (Tree κ)} {s : Spot} :
    behind (if c then forest else forest') s = if c then behind forest s else behind forest' s :=
  apply_ite (behind · s) c forest forest'

theorem behind_leaf {kind : κ} {role : Role} {gap text : String} {line : Nat} {s s' : Spot} :
    behind [leaf kind role gap text line] s = some s' ↔
      line = s.line + Leaf.breaks gap ∧ text ≠ "" ∧
        s.rest = gap.toList ++ text.toList ++ s'.rest ∧ s'.line = line + Leaf.breaks text := by
  have single : behind [leaf kind role gap text line] s = Leaf.behind ⟨gap, text, line⟩ s := by
    show Leaf.behindAll [⟨gap, text, line⟩] s = _
    rw [Leaf.behindAll_cons]
    exact Option.bind_fun_some _
  rw [single, Leaf.behind_eq_some]

/-- The place behind some characters that are taken as one leaf. -/
theorem behind_take (line : Nat) (cs : List Char) (length : Nat) {kind : κ} {role : Role} :
    behind (if (cs.take length).isEmpty then []
      else [leaf kind role "" (String.ofList (cs.take length)) line]) ⟨line, cs⟩ =
        some ⟨line + (cs.take length).count '\n', cs.drop length⟩ := by
  have split := List.take_append_drop length cs
  split
  · next hempty =>
      rw [List.isEmpty_iff.mp hempty, List.nil_append] at split
      rw [List.isEmpty_iff.mp hempty, split]
      rfl
  · next hne =>
      refine behind_leaf.mpr ⟨rfl, ?_, ?_, ?_⟩
      · simpa [← String.toList_inj] using hne
      · simp
      · simp [Leaf.breaks]

/-- The place behind a forest is told by its number of characters. -/
theorem eq_of_behind {forest : List (Tree κ)} {s s' : Spot} (h : behind forest s = some s') :
    s' = ⟨s.line + (s.rest.take (forestSize forest)).count '\n',
      s.rest.drop (forestSize forest)⟩ :=
  Leaf.eq_of_behindAll h

/-! ### Forests with blanks behind them -/

/-- From the place `s` a forest and the blanks behind it have been passed, up to the place `s'`. -/
def Passes (forest : List (Tree κ)) (gap : List Char) (s s' : Spot) : Prop :=
  ∃ mid, behind forest s = some mid ∧ mid.rest = gap ++ s'.rest ∧
    s'.line = mid.line + gap.count '\n'

namespace Passes

variable {forest : List (Tree κ)} {gap : List Char} {s : Spot} {line : Nat} {cs : List Char}

theorem refl (s : Spot) : Passes ([] : List (Tree κ)) [] s s := ⟨s, rfl, rfl, rfl⟩

theorem blank {c : Char} (h : Passes forest gap s ⟨line, c :: cs⟩) :
    Passes forest (gap ++ [c]) s ⟨if c == '\n' then line + 1 else line, cs⟩ := by
  obtain ⟨mid, hmid, hrest, hline⟩ := h
  refine ⟨mid, hmid, by rw [hrest, List.append_assoc]; rfl, ?_⟩
  dsimp only at hline
  by_cases hc : c = '\n' <;> simp [hc, hline, List.count_append, Nat.add_assoc]

/-- The place behind the token that follows. -/
theorem behind_leaf {kind : κ} {role : Role} {blanks text : String}
    (h : Passes forest blanks.toList s ⟨line, text.toList ++ cs⟩) (hne : text ≠ "") :
    behind (forest ++ [leaf kind role blanks text line]) s =
      some ⟨line + Leaf.breaks text, cs⟩ := by
  obtain ⟨mid, hmid, hrest, hline⟩ := h
  rw [behind_append, hmid]
  refine Tree.behind_leaf.mpr ⟨hline, hne, ?_, rfl⟩
  rw [hrest, List.append_assoc]

/-- A token that follows is passed with the forest. -/
theorem leaf {kind : κ} {role : Role} {text : List Char}
    (h : Passes forest gap s ⟨line, text ++ cs⟩) (hne : text ≠ []) :
    Passes (forest ++ [.leaf kind role (String.ofList gap) (String.ofList text) line]) [] s
      ⟨line + text.count '\n', cs⟩ := by
  have passed : Passes forest (String.ofList gap).toList s
      ⟨line, (String.ofList text).toList ++ cs⟩ := by simpa using h
  have hne : String.ofList text ≠ "" := by simpa [← String.toList_inj] using hne
  exact ⟨_, passed.behind_leaf hne, rfl, by simp [Leaf.breaks]⟩

/-- The last leaf of a forest may be taken for blanks. -/
theorem dissolve {kind : κ} {role : Role} {blanks text : String} {stated : Nat} {s' : Spot}
    (h : Passes (forest ++ [.leaf kind role blanks text stated]) gap s s') :
    Passes forest (blanks.toList ++ text.toList ++ gap) s s' := by
  obtain ⟨last, hlast, hrest, hline⟩ := h
  rw [behind_append] at hlast
  obtain ⟨mid, hmid, hleaf⟩ := Option.bind_eq_some_iff.mp hlast
  obtain ⟨hat, -, hfollows, hbehind⟩ := Tree.behind_leaf.mp hleaf
  refine ⟨mid, hmid, ?_, ?_⟩
  · rw [hfollows, hrest, ← List.append_assoc]
  · rw [hline, hbehind, hat, List.count_append, List.count_append, Leaf.breaks, Leaf.breaks]
    omega

/-- What is passed from where something has been passed. -/
theorem trans {rest : List (Tree κ)} {mid s' : Spot} (h : Passes forest [] s mid)
    (hrest : Passes rest gap mid s') : Passes (forest ++ rest) gap s s' := by
  obtain ⟨⟨line, follows⟩, hmid, rfl, rfl⟩ := h
  obtain ⟨last, hlast, hgap, hline⟩ := hrest
  refine ⟨last, ?_, hgap, hline⟩
  rw [behind_append, hmid]
  exact hlast

/-- A part of the forest is passed before the rest. -/
theorem split {rest : List (Tree κ)} {s' : Spot} (h : Passes (forest ++ rest) gap s s') :
    let size := forestSize forest
    let mid : Spot := ⟨s.line + (s.rest.take size).count '\n', s.rest.drop size⟩
    behind forest s = some mid ∧ Passes rest gap mid s' := by
  obtain ⟨last, hlast, hrest, hline⟩ := h
  rw [behind_append] at hlast
  obtain ⟨mid, hmid, hbehind⟩ := Option.bind_eq_some_iff.mp hlast
  dsimp only
  rw [← eq_of_behind hmid]
  exact ⟨hmid, last, hbehind, hrest, hline⟩

end Passes

/-- The leaves of a forest spell the start of a text, each on the line it states. -/
def faithful (forest : List (Tree κ)) (source : List Char) : Bool :=
  (behind forest ⟨1, source⟩).isSome

end Tree

end ArchReview

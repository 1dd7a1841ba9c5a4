import ArchReview.Grammar.Steps
import ArchReview.Proofs.Tree.Places
import Mathlib

/-!
# What reading steps answer

A step comes from one position to another with an answer, or it fails: `Yields` is the triple that
says how the three are related.  A step that reads a forest comes to the place behind its leaves
(`Reads`), so whatever steps are put together, no character is lost and none is read twice.

The steps of `Grammar.Steps` are built from other steps, and what they read follows from what those
read.  Wrapping a forest into a node keeps its trees and its leaves.
-/

set_option mvcgen.warning false

open Std.Do

namespace ArchReview.Grammar

section Steps

variable {σ α : Type} {s₀ : σ} {R : α → σ → Prop}

/-- From the position `s₀` a step comes to one that `R` holds of, with the answer, or it fails. -/
abbrev Yields (p : Parse σ α) (s₀ : σ) (R : α → σ → Prop) : Prop :=
  ⦃fun s => ⌜s = s₀⌝⦄ p ⦃post⟨fun a s => ⌜R a s⌝, fun _ => ⌜True⌝⟩⦄

theorem wp_congr {p q : Parse σ α} {s : σ} (h : p s = q s)
    {R : PostCond α (.arg σ (.except Fault .pure))} : wp⟦p⟧ R s = wp⟦q⟧ R s := by
  simp only [wp, PredTrans.apply_pushArg, StateT.run, h]

/-- The triple, read off the runs of a step. -/
theorem yields_iff {p : Parse σ α} :
    Yields p s₀ R ↔ ∀ a s, p s₀ = .ok (a, s) → R a s := by
  constructor
  · intro h a s hp
    have answer := h s₀ rfl
    rw [wp_congr (show p s₀ = (do set s; pure a : Parse σ α) s₀ from hp)] at answer
    simpa using answer
  · rintro h s rfl
    cases hp : p s with
    | error fault =>
        rw [wp_congr (show p s = (throw fault : Parse σ α) s from hp)]
        simp
    | ok r =>
        rw [wp_congr (show p s = (do set r.2; pure r.1 : Parse σ α) s from hp)]
        simpa using h r.1 r.2 hp

theorem yields_orTry {p q : Parse σ α} (hp : Yields p s₀ R) (hq : Yields q s₀ R) :
    Yields (orTry p q) s₀ R := by
  rw [yields_iff] at hp hq ⊢
  intro a s h
  unfold orTry at h
  split at h
  · next r hr =>
      cases h
      exact hp a s hr
  · exact hq a s h

/-- Faults may be told otherwise. -/
theorem yields_mapError {p : Parse σ α} (h : Yields p s₀ R) (f : σ → Fault → Fault) :
    Yields (fun s => (p s).mapError (f s)) s₀ R := by
  rw [yields_iff] at h ⊢
  intro a s hrun
  cases hp : p s₀ with
  | error fault =>
      rw [hp] at hrun
      cases hrun
  | ok r =>
      rw [hp] at hrun
      cases hrun
      exact h a s hp

theorem throw_spec {fault : Fault} :
    ⦃⌜True⌝⦄ (throw fault : Parse σ α) ⦃post⟨fun _ _ => ⌜False⌝, fun _ => ⌜True⌝⟩⦄ := by
  intro s _
  simp

variable [Position σ]

@[spec]
theorem failHere_spec :
    ⦃⌜True⌝⦄ (failHere : Parse σ α) ⦃post⟨fun _ _ => ⌜False⌝, fun _ => ⌜True⌝⟩⦄ := by
  intro s _
  rw [wp_congr (show failHere s = (throw (Position.fault s) : Parse σ α) s from rfl)]
  exact throw_spec s trivial

theorem yields_failHere : Yields (failHere : Parse σ α) s₀ R :=
  yields_iff.mpr fun _ _ h => by cases h

@[spec]
theorem yields_remaining (s₀ : σ) : Yields remaining s₀ fun _ s => s = s₀ := by
  mvcgen [remaining]

end Steps

/-! ### Reading forests -/

/-- Something holds of each member of a list. -/
def Each {α : Type} (P : α → Prop) (xs : List α) : Prop := ∀ x ∈ xs, P x

section Lists

variable {α : Type} {P P' : α → Prop}

@[simp]
theorem each_nil : Each P [] := List.forall_mem_nil P

@[simp]
theorem each_singleton {x : α} : Each P [x] ↔ P x := List.forall_mem_singleton

@[simp]
theorem each_append {xs ys : List α} : Each P (xs ++ ys) ↔ Each P xs ∧ Each P ys :=
  List.forall_mem_append

@[simp]
theorem each_ite {c : Prop} [Decidable c] {xs ys : List α} :
    Each P (if c then xs else ys) ↔ (c → Each P xs) ∧ (¬ c → Each P ys) := by
  split <;> simp_all

/-- A forest may be answered as nothing if it is empty. -/
@[simp]
theorem getD_unless_nil {xs : List α} [Decidable (xs = [])] :
    (if xs = [] then none else some xs).getD [] = xs := by
  split <;> simp_all

theorem Each.imp {xs : List α} (h : Each P xs) (hP : ∀ x, P x → P' x) : Each P' xs :=
  fun x hx => hP x (h x hx)

end Lists

/-- Positions that stand at a place in a text and have looked ahead from there. -/
class Located (σ : Type) where
  spot : σ → Spot
  /-- What has been seen ahead is what follows. -/
  Sound : σ → Prop

open Located

section Forests

variable {σ κ : Type} [Located σ]

/-- A step reads a forest with `Q`, up to the place behind its leaves. -/
abbrev Reads (p : Parse σ (List (Tree κ))) (s₀ : σ) (Q : List (Tree κ) → Prop) : Prop :=
  Yields p s₀ fun forest s =>
    Sound s₀ → Q forest ∧ Tree.behind forest (spot s₀) = some (spot s) ∧ Sound s

/-- A step reads a forest with `Q` or nothing. -/
abbrev MayRead (p : Parse σ (Option (List (Tree κ)))) (s₀ : σ) (Q : List (Tree κ) → Prop) : Prop :=
  Yields p s₀ fun answer s => Sound s₀ →
    Q (answer.getD []) ∧ Tree.behind (answer.getD []) (spot s₀) = some (spot s) ∧ Sound s

/-- A step answers with a forest that has what was read before at its start. -/
abbrev Continues (lead : List (Tree κ)) (P : Prop) (p : Parse σ (List (Tree κ))) (s₀ : σ)
    (Q : List (Tree κ) → Prop) : Prop :=
  Yields p s₀ fun forest s => Sound s₀ → P → Q forest ∧ Sound s ∧
    ∀ start, Tree.behind lead start = some (spot s₀) → Tree.behind forest start = some (spot s)

/-- A step answers with a forest that has what was read before at its start, or not at all. -/
abbrev MayContinue (lead : List (Tree κ)) (p : Parse σ (Option (List (Tree κ)))) (s₀ : σ)
    (Q : List (Tree κ) → Prop) : Prop :=
  Yields p s₀ fun answer s => Sound s₀ → Q lead → Q (answer.getD lead) ∧ Sound s ∧
    ∀ start, Tree.behind lead start = some (spot s₀) →
      Tree.behind (answer.getD lead) start = some (spot s)

/-- **Nothing is lost**: a forest that is read from the start of a text spells it. -/
theorem faithful_of_reads {p : Parse σ (List (Tree κ))} {s₀ s : σ} {Q : List (Tree κ) → Prop}
    {forest : List (Tree κ)} {source : List Char} (h : Reads p s₀ Q)
    (hstart : Sound s₀ ∧ spot s₀ = ⟨1, source⟩) (hrun : p s₀ = .ok (forest, s)) :
    Q forest ∧ Tree.faithful forest source = true := by
  obtain ⟨hsound, hspot⟩ := hstart
  obtain ⟨hforest, hbehind, -⟩ := yields_iff.mp h forest s hrun hsound
  rw [hspot] at hbehind
  exact ⟨hforest, Option.isSome_of_eq_some hbehind⟩

variable [Position σ] {P : Tree κ → Prop} {Q : List (Tree κ) → Prop}

theorem reads_repeatLoop {step : Parse σ (Option (List (Tree κ)))}
    (h : ∀ s, MayRead step s (Each P)) : ∀ n s, Reads (repeatLoop step n) s (Each P)
  | 0, _ => yields_failHere
  | n + 1, s => by
      have ih := reads_repeatLoop h n
      mvcgen [repeatLoop, h, ih] <;> intros <;> simp_all

theorem reads_repeatWhile {step : Parse σ (Option (List (Tree κ)))}
    (h : ∀ s, MayRead step s (Each P)) (s₀ : σ) : Reads (repeatWhile step) s₀ (Each P) := by
  have loop := reads_repeatLoop h
  mvcgen [repeatWhile, loop]
  simp_all

theorem continues_extendLoop {step : List (Tree κ) → Parse σ (Option (List (Tree κ)))}
    (h : ∀ tree s, MayContinue tree (step tree) s Q) :
    ∀ n tree s, Continues tree (Q tree) (extendLoop step n tree) s Q
  | 0, _, _ => yields_failHere
  | n + 1, tree, s => by
      have ih := continues_extendLoop h n
      mvcgen [extendLoop, h, ih] <;> grind

theorem continues_extend {step : List (Tree κ) → Parse σ (Option (List (Tree κ)))}
    (h : ∀ tree s, MayContinue tree (step tree) s Q) (tree : List (Tree κ)) (s₀ : σ) :
    Continues tree (Q tree) (extend step tree) s₀ Q := by
  have loop := continues_extendLoop h
  mvcgen [extend, loop]
  simp_all

theorem reads_separatedLoop {item separator? : Parse σ (List (Tree κ))}
    (hitem : ∀ s, Reads item s (Each P)) (hsep : ∀ s, Reads separator? s (Each P))
    (stops : σ → Bool) : ∀ n s, Reads (separatedLoop item separator? stops n) s (Each P)
  | 0, _ => yields_failHere
  | n + 1, s => by
      have ih := reads_separatedLoop hitem hsep stops n
      mvcgen [separatedLoop, hitem, hsep, ih] <;> intros <;> simp_all

theorem reads_separated {item separator? : Parse σ (List (Tree κ))} {stops : σ → Bool}
    (hitem : ∀ s, Reads item s (Each P)) (hsep : ∀ s, Reads separator? s (Each P)) (s₀ : σ) :
    Reads (separated item separator? stops) s₀ (Each P) := by
  have loop := reads_separatedLoop hitem hsep stops
  mvcgen [separated, loop]
  simp_all

end Forests

/-! ### Nodes and roles -/

section Nodes

variable {κ : Type} [HasTrivia κ]

/-- The trees of a forest in a node are trees of the forest, and the node itself. -/
theorem mem_node {kind : κ} {forest : List (Tree κ)} {t : Tree κ} (h : t ∈ node kind forest) :
    t ∈ forest ∨ t.kind = kind ∧ t.role = .plain ∧ t.children ≠ [] ∧
      ∀ part ∈ t.children, part ∈ forest := by
  unfold node at h
  split at h
  · exact Or.inl h
  · next first rest hdrop =>
      rcases List.mem_append.mp h with h | h
      · exact Or.inl ((List.takeWhile_sublist _).subset h)
      · rw [List.mem_singleton.mp h]
        refine Or.inr ⟨rfl, rfl, List.cons_ne_nil _ _, fun part hpart => ?_⟩
        have kept : part ∈ first :: rest := hpart
        exact (List.dropWhile_sublist _).subset (hdrop ▸ kept)

@[simp]
theorem behind_node {kind : κ} {forest : List (Tree κ)} {s : Spot} :
    Tree.behind (node kind forest) s = Tree.behind forest s := by
  unfold node
  split
  · rfl
  · next first rest hdrop =>
      conv_rhs => rw [← List.takeWhile_append_dropWhile (p := fun t => HasTrivia.isTrivia t.kind)
        (l := forest), hdrop]
      rw [Tree.behind_append, Tree.behind_append]
      rfl

@[simp]
theorem behind_nodeUnless {needless : Bool} {kind : κ} {forest : List (Tree κ)} {s : Spot} :
    Tree.behind (nodeUnless needless kind forest) s = Tree.behind forest s := by
  unfold nodeUnless
  split
  · rfl
  · exact behind_node

@[simp]
theorem behind_withRole {r : Role} {forest : List (Tree κ)} {s : Spot} :
    Tree.behind (withRole r forest) s = Tree.behind forest s := by
  have same : ∀ t : Tree κ, (if HasTrivia.isTrivia t.kind then t else t.setRole r).leaves =
      t.leaves := by
    intro t
    split
    · rfl
    · cases t <;> rfl
  rw [Tree.behind, withRole, Tree.forestLeaves_map same]
  rfl

/-- What a node is made of becomes a part; only trivia may be left outside. -/
theorem exists_mem_node (kind : κ) {forest : List (Tree κ)} {t : Tree κ} (h : t ∈ forest) :
    t ∈ node kind forest ∧ HasTrivia.isTrivia t.kind = true ∨
      ∃ u ∈ node kind forest, u.kind = kind ∧ t ∈ u.children := by
  unfold node
  split
  · next hdrop => exact Or.inl ⟨h, List.dropWhile_eq_nil_iff.mp hdrop t h⟩
  · next first rest hdrop =>
      rw [← List.takeWhile_append_dropWhile (p := fun t => HasTrivia.isTrivia t.kind) (l := forest),
        hdrop, List.mem_append] at h
      rcases h with h | h
      · have htrivia := List.mem_takeWhile_imp h
        exact Or.inl ⟨List.mem_append_left _ h, htrivia⟩
      · exact Or.inr ⟨_, List.mem_append_right _ (List.mem_singleton_self _), rfl, h⟩

end Nodes

end ArchReview.Grammar

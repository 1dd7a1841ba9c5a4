import ArchReview.Tree.Basic

/-!
# Walks over syntax trees

A walk goes from a tree to some of its parts, in a scope that it makes out on the way, and collects
what the trees it enters state (`Walk`).  `Stands` says where a tree is: below which others.  What a
walk collects is what is stated by the trees it reaches (`Walk.mem_forest_iff`).

Whether a part is entered depends on the scope, so it has to be said what the scope tells of a
place.  Where this is said (`Walk.Charted`), the trees that are reached are those that no step on
the way down passes over (`Charted.exists_reaches_iff`): the walk is described by the places that
it leaves out, without scopes.
-/

namespace ArchReview.Tree

variable {κ σ α : Type}

/-! ### Places -/

/-- A tree stands in a forest below the trees `around`, the nearest first. -/
inductive Stands (forest : List (Tree κ)) : List (Tree κ) → Tree κ → Prop where
  | top {t : Tree κ} (h : t ∈ forest) : Stands forest [] t
  | part {around : List (Tree κ)} {t part : Tree κ} (h : Stands forest around t)
      (hpart : part ∈ t.children) : Stands forest (t :: around) part

/-- No step on the way down to a tree passes it over.  `skips around t part` says that the part of
a tree `t` below the trees `around` is passed over. -/
def Clear (skips : List (Tree κ) → Tree κ → Tree κ → Prop) : List (Tree κ) → Tree κ → Prop
  | [], _             => True
  | t :: around, part => ¬ skips around t part ∧ Clear skips around t

instance Clear.decide {skips : List (Tree κ) → Tree κ → Tree κ → Prop}
    [∀ around t part, Decidable (skips around t part)] :
    ∀ (around : List (Tree κ)) (t : Tree κ), Decidable (Clear skips around t)
  | [], _          => .isTrue trivial
  | t :: around, _ => @instDecidableAnd _ _ inferInstance (Clear.decide around t)

theorem clear_or {skips omits : List (Tree κ) → Tree κ → Tree κ → Prop} :
    ∀ {around : List (Tree κ)} {t : Tree κ},
      Clear (fun around t part => skips around t part ∨ omits around t part) around t ↔
        Clear skips around t ∧ Clear omits around t
  | [], _ => (and_self_iff ..).symm
  | t :: around, part => by
      rw [Clear, Clear, Clear, clear_or, not_or, and_and_and_comm]

theorem sizeOf_lt_of_mem_children {t part : Tree κ} (h : part ∈ t.children) :
    sizeOf part < sizeOf t := by
  cases t with
  | leaf => cases h
  | node kind role first rest =>
      rw [node.sizeOf_spec]
      rcases List.mem_cons.mp h with rfl | h
      · omega
      · have := List.sizeOf_lt_of_mem h
        omega

/-- What holds of a tree if it holds of its parts, holds of every tree. -/
theorem induction_parts {motive : Tree κ → Prop}
    (step : ∀ t, (∀ part ∈ t.children, motive part) → motive t) (t : Tree κ) : motive t :=
  step t fun part hpart =>
    have := sizeOf_lt_of_mem_children hpart
    induction_parts step part
termination_by sizeOf t

/-! ### Walks -/

/-- A walk over trees. -/
structure Walk (κ σ α : Type) where
  /-- The scope in which a part of a tree is entered, if it is. -/
  enter : σ → Tree κ → Tree κ → Option σ
  /-- What a tree states by itself. -/
  own : σ → Tree κ → List α
  /-- What is collected from a tree. -/
  all : σ → Tree κ → List α
  mem_all {a : α} {s : σ} {t : Tree κ} : a ∈ all s t ↔
    a ∈ own s t ∨ ∃ part ∈ t.children, ∃ s', enter s t part = some s' ∧ a ∈ all s' part

namespace Walk

variable (w : Walk κ σ α)

/-- The trees that a walk from the trees of a forest comes to, each with its scope. -/
inductive Reaches (start : σ) (forest : List (Tree κ)) : σ → List (Tree κ) → Tree κ → Prop where
  | top {t : Tree κ} (h : t ∈ forest) : Reaches start forest start [] t
  | part {s s' : σ} {around : List (Tree κ)} {t part : Tree κ}
      (h : Reaches start forest s around t) (hpart : part ∈ t.children)
      (henter : w.enter s t part = some s') : Reaches start forest s' (t :: around) part

variable {w} {start : σ} {forest : List (Tree κ)}

theorem Reaches.mem_forest {s : σ} {around : List (Tree κ)} {t : Tree κ} {a : α}
    (h : w.Reaches start forest s around t) (ha : a ∈ w.all s t) :
    ∃ u ∈ forest, a ∈ w.all start u := by
  induction h with
  | top h => exact ⟨_, h, ha⟩
  | part _ hpart henter ih => exact ih (w.mem_all.mpr (Or.inr ⟨_, hpart, _, henter, ha⟩))

theorem Reaches.exists_own {a : α} (t : Tree κ) : ∀ {s : σ} {around : List (Tree κ)},
    w.Reaches start forest s around t → a ∈ w.all s t →
      ∃ s' around' u, w.Reaches start forest s' around' u ∧ a ∈ w.own s' u := by
  induction t using induction_parts with
  | step t ih =>
      intro s around h ha
      rcases w.mem_all.mp ha with hown | ⟨part, hpart, s', henter, hrest⟩
      · exact ⟨s, around, t, h, hown⟩
      · exact ih part hpart (h.part hpart henter) hrest

/-- **What is collected** from the trees of a forest is what the trees that are reached state. -/
theorem mem_forest_iff {a : α} :
    (∃ t ∈ forest, a ∈ w.all start t) ↔
      ∃ s around t, w.Reaches start forest s around t ∧ a ∈ w.own s t := by
  constructor
  · rintro ⟨t, ht, ha⟩
    exact Reaches.exists_own t (.top ht) ha
  · rintro ⟨s, around, t, h, hown⟩
    exact h.mem_forest (w.mem_all.mpr (Or.inl hown))

/-! ### Charts -/

/-- What scopes tell of places, and which places are passed over. -/
structure Charted (w : Walk κ σ α) (agrees : σ → List (Tree κ) → Tree κ → Prop)
    (skips : List (Tree κ) → Tree κ → Tree κ → Prop) : Prop where
  none_iff {s : σ} {around : List (Tree κ)} {t part : Tree κ} (h : agrees s around t) :
    w.enter s t part = none ↔ skips around t part
  agrees_part {s s' : σ} {around : List (Tree κ)} {t part : Tree κ} (h : agrees s around t)
    (henter : w.enter s t part = some s') : agrees s' (t :: around) part

namespace Charted

variable {agrees : σ → List (Tree κ) → Tree κ → Prop}
  {skips : List (Tree κ) → Tree κ → Tree κ → Prop} (c : w.Charted agrees skips)
  (htop : ∀ t ∈ forest, agrees start [] t)
include c htop

theorem agrees_of_reaches {s : σ} {around : List (Tree κ)} {t : Tree κ}
    (h : w.Reaches start forest s around t) : agrees s around t := by
  induction h with
  | top h => exact htop _ h
  | part _ _ henter ih => exact c.agrees_part ih henter

/-- **The reach of a walk**: the trees that nothing on the way down to them passes over. -/
theorem exists_reaches_iff {around : List (Tree κ)} {t : Tree κ} :
    (∃ s, w.Reaches start forest s around t) ↔ Stands forest around t ∧ Clear skips around t := by
  constructor
  · rintro ⟨s, h⟩
    induction h with
    | top h => exact ⟨.top h, trivial⟩
    | @part s s' around t part h hpart henter ih =>
        obtain ⟨hstands, hclear⟩ := ih
        refine ⟨.part hstands hpart, fun hskips => ?_, hclear⟩
        rw [(c.none_iff (c.agrees_of_reaches htop h)).mpr hskips] at henter
        cases henter
  · rintro ⟨hstands, hclear⟩
    induction hstands with
    | top h => exact ⟨start, .top h⟩
    | @part around t part _ hpart ih =>
        obtain ⟨s, h⟩ := ih hclear.2
        cases henter : w.enter s t part with
        | none => exact absurd ((c.none_iff (c.agrees_of_reaches htop h)).mp henter) hclear.1
        | some s' => exact ⟨s', h.part hpart henter⟩

/-- What is collected, told by places: what a tree states in some scope of its place is stated in
every one. -/
theorem mem_forest_iff {states : α → List (Tree κ) → Tree κ → Prop}
    (hown : ∀ {a s around t}, agrees s around t → (a ∈ w.own s t ↔ states a around t)) {a : α} :
    (∃ t ∈ forest, a ∈ w.all start t) ↔
      ∃ around t, Stands forest around t ∧ Clear skips around t ∧ states a around t := by
  rw [Walk.mem_forest_iff]
  constructor
  · rintro ⟨s, around, t, h, ha⟩
    obtain ⟨hstands, hclear⟩ := (c.exists_reaches_iff htop).mp ⟨s, h⟩
    exact ⟨around, t, hstands, hclear, (hown (c.agrees_of_reaches htop h)).mp ha⟩
  · rintro ⟨around, t, hstands, hclear, ha⟩
    obtain ⟨s, h⟩ := (c.exists_reaches_iff htop).mpr ⟨hstands, hclear⟩
    exact ⟨s, around, t, h, (hown (c.agrees_of_reaches htop h)).mpr ha⟩

end Charted

end Walk

end ArchReview.Tree

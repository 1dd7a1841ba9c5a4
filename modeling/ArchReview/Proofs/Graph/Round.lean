import ArchReview.Proofs.Graph.Edges
import Mathlib.Data.List.Chain
import Mathlib.Data.List.Rotate
import Mathlib.Data.List.TakeWhile

/-!
# Closed rounds

A closed round is a list of files, read as a walk that goes from the last file back to the first.
`legs` lists its steps, the one that closes it included.  A *closed walk* of a graph is a non-empty
round whose legs are edges; a *cycle* is a closed walk through distinct files.

Where a round starts does not matter for its legs (`mem_legs_of_isRotated`), and telling a round
from its smallest file on only turns it (`rotateToSmallest_isRotated`).
-/

namespace ArchReview

/-! ### Legs -/

/-- The steps of a closed round, the last one back to its start. -/
def legs (round : List Path) : List (Path × Path) := round.zip (round.rotate 1)

theorem legs_cons (p : Path) (rest : List Path) :
    legs (p :: rest) = (p :: rest).zip (rest ++ [p]) := by
  rw [legs, List.rotate_cons_succ, List.rotate_zero]

theorem legs_rotate (round : List Path) (n : Nat) :
    legs (round.rotate n) = (legs round).rotate n := by
  have h := List.zipWith_rotate_distrib Prod.mk round (round.rotate 1) n
    (List.length_rotate round 1).symm
  rw [legs, legs, List.zip_eq_zipWith, List.zip_eq_zipWith, h, List.rotate_rotate,
    List.rotate_rotate, Nat.add_comm]

theorem mem_legs_of_isRotated {c d : List Path} (h : c ~r d) {e : Path × Path} :
    e ∈ legs c ↔ e ∈ legs d := by
  obtain ⟨n, rfl⟩ := h
  rw [legs_rotate, List.mem_rotate]

theorem mem_of_mem_legs {round : List Path} {e : Path × Path} (h : e ∈ legs round) :
    e.1 ∈ round ∧ e.2 ∈ round := by
  obtain ⟨h₁, h₂⟩ := List.of_mem_zip (a := e.1) (b := e.2) h
  exact ⟨h₁, List.mem_rotate.mp h₂⟩

/-- A leg starts at every file of a round. -/
theorem exists_leg_from {round : List Path} {p : Path} (h : p ∈ round) :
    ∃ q, (p, q) ∈ legs round := by
  obtain ⟨i, hi, rfl⟩ := List.getElem_of_mem h
  have hr : i < (round.rotate 1).length := by rwa [List.length_rotate]
  have hz : i < (legs round).length := by
    rw [legs, List.length_zip]
    omega
  refine ⟨(round.rotate 1)[i], List.mem_iff_getElem.mpr ⟨i, hz, ?_⟩⟩
  simp only [legs, List.getElem_zip]

/-- The legs of a round are related when the round, taken back to its start, is a chain. -/
theorem forall_mem_zip_of_isChain {R : Path → Path → Prop} {q : Path} :
    ∀ {p : Path} {rest : List Path}, (p :: (rest ++ [q])).IsChain R →
      ∀ e ∈ (p :: rest).zip (rest ++ [q]), R e.1 e.2
  | p, [], h, e, he => by
      obtain rfl : e = (p, q) := by simpa using he
      exact List.isChain_pair.mp h
  | p, r :: rest, h, e, he => by
      obtain ⟨hpr, hr⟩ := List.isChain_cons_cons.mp h
      rw [List.cons_append, List.zip_cons_cons, List.mem_cons] at he
      rcases he with rfl | he
      · exact hpr
      · exact forall_mem_zip_of_isChain hr e he

theorem forall_legs_of_isChain {R : Path → Path → Prop} {p : Path} {rest : List Path}
    (h : (p :: (rest ++ [p])).IsChain R) : ∀ e ∈ legs (p :: rest), R e.1 e.2 := by
  rw [legs_cons]
  exact forall_mem_zip_of_isChain h

/-- The last leg leads from the last file back to the first. -/
theorem closing_mem_legs (p : Path) (mid : List Path) (q : Path) :
    (q, p) ∈ legs (p :: (mid ++ [q])) := by
  have hlen : (p :: mid).length = (mid ++ [q]).length := by simp
  have e : ((p :: mid) ++ [q]).zip ((mid ++ [q]) ++ [p]) =
      (p :: mid).zip (mid ++ [q]) ++ [(q, p)] := List.zip_append hlen
  rw [legs_cons, ← List.cons_append, e]
  exact List.mem_append_right _ List.mem_cons_self

/-! ### Walks and cycles -/

namespace Graph

/-- A directed cycle that may pass through a file more than once. -/
def IsClosedWalk (g : Graph) (walk : List Path) : Prop :=
  walk ≠ [] ∧ ∀ e ∈ legs walk, e ∈ g.edges

/-- A simple directed cycle: distinct files, each importing the next and the last the first. -/
def IsCycle (g : Graph) (cycle : List Path) : Prop := g.IsClosedWalk cycle ∧ cycle.Nodup

instance (g : Graph) (walk : List Path) : Decidable (g.IsClosedWalk walk) :=
  inferInstanceAs (Decidable (_ ∧ _))

instance (g : Graph) (cycle : List Path) : Decidable (g.IsCycle cycle) :=
  inferInstanceAs (Decidable (_ ∧ _))

theorem IsClosedWalk.of_isRotated {g : Graph} {c d : List Path} (h : g.IsClosedWalk d)
    (hcd : c ~r d) : g.IsClosedWalk c :=
  ⟨fun e => h.1 (List.isRotated_nil_iff.mp (e ▸ hcd.symm)),
    fun e he => h.2 e ((mem_legs_of_isRotated hcd).mp he)⟩

theorem IsCycle.of_isRotated {g : Graph} {c d : List Path} (h : g.IsCycle d) (hcd : c ~r d) :
    g.IsCycle c :=
  ⟨h.1.of_isRotated hcd, hcd.nodup_iff.mpr h.2⟩

theorem IsClosedWalk.mem_nodes {g : Graph} {walk : List Path} (h : g.IsClosedWalk walk) {p : Path}
    (hp : p ∈ walk) : p ∈ g.nodes := by
  obtain ⟨q, hq⟩ := exists_leg_from hp
  exact (mem_edges.mp (h.2 _ hq)).1

end Graph

/-! ### Rounds with the same files -/

theorem sameMembers_iff {c d : List Path} : sameMembers c d = true ↔ ∀ p, p ∈ c ↔ p ∈ d := by
  simp only [sameMembers, Bool.and_eq_true, List.all_eq_true, List.contains_iff_mem]
  exact ⟨fun h p => ⟨h.1 p, h.2 p⟩, fun h => ⟨fun p => (h p).mp, fun p => (h p).mpr⟩⟩

/-- In a list without repetitions, the files of a set stand in one order only. -/
theorem eq_of_sublist_of_mem_iff {c l : List Path} (hc : c.Sublist l) :
    ∀ {d : List Path}, l.Nodup → d.Sublist l → (∀ p, p ∈ c ↔ p ∈ d) → c = d := by
  induction hc with
  | slnil =>
      intro d _ hd _
      exact (List.sublist_nil.mp hd).symm
  | cons x hc ih =>
      intro d hl hd h
      obtain ⟨hx, hl⟩ := List.nodup_cons.mp hl
      cases hd with
      | cons _ hd => exact ih hl hd h
      | cons_cons _ hd => exact absurd (hc.subset ((h x).mpr List.mem_cons_self)) hx
  | cons_cons x hc ih =>
      intro d hl hd h
      obtain ⟨hx, hl⟩ := List.nodup_cons.mp hl
      cases hd with
      | cons _ hd => exact absurd (hd.subset ((h x).mp List.mem_cons_self)) hx
      | cons_cons _ hd =>
          refine congrArg _ (ih hl hd fun p => ?_)
          by_cases hp : p = x
          · subst hp
            exact iff_of_false (fun h => hx (hc.subset h)) (fun h => hx (hd.subset h))
          · simpa [hp] using h p

/-! ### From the smallest file on -/

/-- The smaller of two paths. -/
def smaller (m q : Path) : Path := if q.compare m == .lt then q else m

theorem smaller_mem (m q : Path) : smaller m q ∈ [m, q] := by
  unfold smaller
  split <;> simp

theorem smaller_le (m q : Path) : (smaller m q).le m = true ∧ (smaller m q).le q = true := by
  unfold smaller
  by_cases h : q.compare m = .lt
  · simpa [h, Path.le_refl] using Path.le_of_lt h
  · simpa [h, Path.le_refl] using Path.le_of_not_lt h

theorem foldl_smaller_mem : ∀ (ps : List Path) (p : Path), ps.foldl smaller p ∈ p :: ps
  | [], _ => List.mem_cons_self
  | r :: ps, p => by
      rw [List.foldl_cons]
      rcases List.mem_cons.mp (foldl_smaller_mem ps (smaller p r)) with h | h
      · rw [h]
        exact List.mem_append_left ps (smaller_mem p r)
      · exact List.mem_cons_of_mem _ (List.mem_cons_of_mem _ h)

theorem foldl_smaller_le : ∀ (ps : List Path) (p : Path),
    ∀ q ∈ p :: ps, (ps.foldl smaller p).le q = true
  | [], p, q, hq => List.mem_singleton.mp hq ▸ Path.le_refl p
  | r :: ps, p, q, hq => by
      rw [List.foldl_cons]
      have ih := foldl_smaller_le ps (smaller p r)
      have first := ih _ List.mem_cons_self
      rcases List.mem_cons.mp hq with rfl | hq
      · exact Path.le_trans _ _ _ first (smaller_le q r).1
      · rcases List.mem_cons.mp hq with rfl | hq
        · exact Path.le_trans _ _ _ first (smaller_le p q).2
        · exact ih q (List.mem_cons_of_mem _ hq)

theorem exists_smallest {round : List Path} (h : round ≠ []) :
    ∃ m ∈ round, smallest? round = some m ∧ ∀ q ∈ round, m.le q = true := by
  cases round with
  | nil => exact absurd rfl h
  | cons p ps => exact ⟨ps.foldl smaller p, foldl_smaller_mem ps p, rfl, foldl_smaller_le ps p⟩

/-- Telling a round from its smallest file on only turns it. -/
theorem rotateToSmallest_isRotated (round : List Path) : rotateToSmallest round ~r round := by
  unfold rotateToSmallest
  split
  · rfl
  · rename_i m _
    have h : round.dropWhile (· != m) ++ round.takeWhile (· != m) ~r
        round.takeWhile (· != m) ++ round.dropWhile (· != m) := List.isRotated_append
    rwa [List.takeWhile_append_dropWhile] at h

/-- A round told from its smallest file on starts with a file that is below all others. -/
theorem exists_rotateToSmallest_eq_cons {round : List Path} (h : round ≠ []) :
    ∃ m rest, rotateToSmallest round = m :: rest ∧ ∀ q ∈ round, m.le q = true := by
  obtain ⟨m, hm, e, hle⟩ := exists_smallest h
  have hne : round.dropWhile (· != m) ≠ [] := fun hnil => by
    have := List.dropWhile_eq_nil_iff.mp hnil m hm
    simp at this
  obtain ⟨x, xs, hx⟩ := List.exists_cons_of_ne_nil hne
  have hxm : x = m := by
    have := List.head_dropWhile_not (· != m) hne
    simpa [hx] using this
  exact ⟨m, xs ++ round.takeWhile (· != m), by simp [rotateToSmallest, e, hx, hxm], hle⟩

end ArchReview

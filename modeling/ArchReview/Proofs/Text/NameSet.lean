import ArchReview.Proofs.Path.Order
import Mathlib.Data.Finset.Card

/-!
# Sets of names

`nameSet` gives the names of a list (`mem_nameSet`), strictly ascending (`ascending_nameSet`), so
it depends only on which names there are (`nameSet_congr`) and counts them (`length_nameSet`).
-/

namespace ArchReview.Text
open Std

theorem mem_insertName {name x : String} :
    ∀ {set : List String}, x ∈ insertName name set ↔ x = name ∨ x ∈ set
  | [] => by simp [insertName]
  | y :: set => by
      rw [insertName]
      split
      · rw [List.mem_cons]
      · rename_i h
        rw [LawfulEqCmp.eq_of_compare h, List.mem_cons, ← or_assoc, or_self]
      · rw [List.mem_cons, List.mem_cons, mem_insertName]
        exact or_left_comm

/-- A name is put where it keeps the order. -/
theorem ascending_insertName {name : String} :
    ∀ {set : List String}, set.Pairwise (fun x y => compareStrings x y = .lt) →
      (insertName name set).Pairwise fun x y => compareStrings x y = .lt
  | [], _ => List.pairwise_singleton _ _
  | y :: set, h => by
      obtain ⟨hy, hset⟩ := List.pairwise_cons.mp h
      rw [insertName]
      split
      · rename_i hlt
        refine List.pairwise_cons.mpr ⟨fun z hz => ?_, h⟩
        rcases List.mem_cons.mp hz with rfl | hz
        · exact hlt
        · exact TransCmp.lt_trans hlt (hy z hz)
      · exact h
      · rename_i hgt
        refine List.pairwise_cons.mpr ⟨fun z hz => ?_, ascending_insertName hset⟩
        rcases mem_insertName.mp hz with rfl | hz
        · exact OrientedCmp.lt_of_gt hgt
        · exact hy z hz

theorem mem_foldl_insertName {x : String} :
    ∀ {names set : List String},
      x ∈ names.foldl (fun set name => insertName name set) set ↔ x ∈ names ∨ x ∈ set
  | [], _ => by simp
  | name :: names, set => by
      rw [List.foldl_cons, mem_foldl_insertName, mem_insertName, List.mem_cons]
      tauto

theorem mem_nameSet {x : String} {names : List String} : x ∈ nameSet names ↔ x ∈ names := by
  rw [nameSet, mem_foldl_insertName]
  simp

theorem ascending_foldl_insertName :
    ∀ {names set : List String}, set.Pairwise (fun x y => compareStrings x y = .lt) →
      (names.foldl (fun set name => insertName name set) set).Pairwise
        fun x y => compareStrings x y = .lt
  | [], _, h => h
  | name :: names, set, h => by
      rw [List.foldl_cons]
      exact ascending_foldl_insertName (ascending_insertName h)

theorem ascending_nameSet (names : List String) :
    (nameSet names).Pairwise fun x y => compareStrings x y = .lt :=
  ascending_foldl_insertName List.Pairwise.nil

/-- **The set of some names depends only on which names they are.** -/
theorem nameSet_congr {names others : List String} (h : ∀ x, x ∈ names ↔ x ∈ others) :
    nameSet names = nameSet others :=
  eq_of_pairwise_lt (ascending_nameSet names) (ascending_nameSet others) fun x => by
    rw [mem_nameSet, mem_nameSet, h x]

theorem nodup_nameSet (names : List String) : (nameSet names).Nodup :=
  (ascending_nameSet names).imp ne_of_cmp_lt

/-- The set of some names has as many elements as there are distinct names. -/
theorem length_nameSet (names : List String) : (nameSet names).length = names.toFinset.card := by
  have h : (nameSet names).toFinset = names.toFinset := by
    ext x
    simp [mem_nameSet]
  rw [← h, List.toFinset_card_of_nodup (nodup_nameSet names)]

end ArchReview.Text

import ArchReview.Proofs.Path.Order

/-!
# Sets of paths

`pathSet` sorts paths and keeps the first of every run of equal ones.  Its result is strictly
ascending (`ascending_pathSet`), holds only given paths (`mem_of_mem_pathSet`), and has every given
path in one of its spellings (`exists_same_mem_pathSet`).  In a strictly ascending list no path
stands in two spellings (`Ascending.eq_of_same`).

Where no given path has two spellings, the result has exactly the given paths (`mem_pathSet`) and
does not depend on their order (`pathSet_eq_of_perm`).
-/

namespace ArchReview
open Std

/-- Strictly ascending paths: distinct, in order. -/
def Ascending (paths : List Path) : Prop := paths.Pairwise fun p q => p.compare q = .lt

instance (paths : List Path) : Decidable (Ascending paths) :=
  inferInstanceAs (Decidable (paths.Pairwise fun p q => p.compare q = .lt))

/-- No path of a list stands in it in two spellings. -/
def Spelled (paths : List Path) : Prop := ∀ p ∈ paths, ∀ q ∈ paths, p.same q = true → p = q

theorem Path.ne_of_lt {p q : Path} (h : p.compare q = .lt) : p ≠ q := ne_of_cmp_lt h

theorem Path.not_same_of_lt {p q : Path} (h : p.compare q = .lt) : ¬ p.same q = true := by
  rw [← Path.compare_eq_iff, h]
  decide

namespace Ascending

theorem nodup {paths : List Path} (h : Ascending paths) : paths.Nodup := h.imp Path.ne_of_lt

theorem spelled {paths : List Path} (h : Ascending paths) : Spelled paths :=
  fun _ hp _ hq hs => eq_of_cmp_eq h hp hq (Path.compare_eq_iff.mpr hs)

theorem eq_of_same {paths : List Path} (h : Ascending paths) {p q : Path} (hp : p ∈ paths)
    (hq : q ∈ paths) (hpq : p.same q = true) : p = q :=
  h.spelled p hp q hq hpq

end Ascending

/-! ### Dropping repetitions from sorted paths -/

/-- Puts a path in front of a list, in the place of its first one if that is the same. -/
def joinRun (p : Path) (kept : List Path) : List Path :=
  match kept with
  | q :: _ => if p.same q then p :: kept.tail else p :: kept
  | []     => [p]

theorem pathSet_eq_foldr (paths : List Path) :
    pathSet paths = (paths.mergeSort Path.le).foldr joinRun [] := rfl

theorem joinRun_eq_cons (p : Path) (kept : List Path) :
    joinRun p kept = p :: kept ∨
      ∃ q rest, kept = q :: rest ∧ p.same q = true ∧ joinRun p kept = p :: rest := by
  cases kept with
  | nil => exact Or.inl rfl
  | cons q rest =>
      by_cases h : p.same q = true
      · exact Or.inr ⟨q, rest, rfl, h, by simp [joinRun, h]⟩
      · exact Or.inl (by simp [joinRun, h])

theorem mem_of_mem_foldr_joinRun {p : Path} :
    ∀ {paths : List Path}, p ∈ paths.foldr joinRun [] → p ∈ paths
  | [], h => h
  | q :: rest, h => by
      rw [List.foldr_cons] at h
      rcases joinRun_eq_cons q (rest.foldr joinRun []) with e | ⟨r, kept, hk, -, e⟩
      · rw [e] at h
        rcases List.mem_cons.mp h with rfl | h
        · exact List.mem_cons_self
        · exact List.mem_cons_of_mem _ (mem_of_mem_foldr_joinRun h)
      · rw [e] at h
        rcases List.mem_cons.mp h with rfl | h
        · exact List.mem_cons_self
        · exact List.mem_cons_of_mem _ (mem_of_mem_foldr_joinRun (hk ▸ List.mem_cons_of_mem _ h))

theorem exists_same_mem_foldr_joinRun {p : Path} :
    ∀ {paths : List Path}, p ∈ paths → ∃ q ∈ paths.foldr joinRun [], p.same q = true
  | q :: rest, h => by
      rw [List.foldr_cons]
      rcases List.mem_cons.mp h with rfl | h
      · rcases joinRun_eq_cons p (rest.foldr joinRun []) with e | ⟨_, _, -, -, e⟩
        · exact ⟨p, by simp [e], Path.same_refl p⟩
        · exact ⟨p, by simp [e], Path.same_refl p⟩
      · obtain ⟨r, hr, hpr⟩ := exists_same_mem_foldr_joinRun h
        rcases joinRun_eq_cons q (rest.foldr joinRun []) with e | ⟨r', kept, hk, hqr, e⟩
        · exact ⟨r, by rw [e]; exact List.mem_cons_of_mem _ hr, hpr⟩
        · -- `r` may be the path that `q` replaces
          rw [hk] at hr
          rcases List.mem_cons.mp hr with rfl | hr
          · refine ⟨q, by simp [e], ?_⟩
            rw [Path.same_iff] at hpr hqr ⊢
            exact hpr.trans hqr.symm
          · exact ⟨r, by rw [e]; exact List.mem_cons_of_mem _ hr, hpr⟩

theorem ascending_foldr_joinRun :
    ∀ {paths : List Path}, paths.Pairwise (fun p q => p.le q = true) →
      Ascending (paths.foldr joinRun [])
  | [], _ => List.Pairwise.nil
  | p :: rest, h => by
      obtain ⟨hp, hrest⟩ := List.pairwise_cons.mp h
      have ih := ascending_foldr_joinRun hrest
      have below : ∀ q ∈ rest.foldr joinRun [], p.le q = true :=
        fun q hq => hp q (mem_of_mem_foldr_joinRun hq)
      rw [List.foldr_cons]
      rcases hk : rest.foldr joinRun [] with _ | ⟨q, kept⟩
      · exact List.pairwise_singleton _ _
      · rw [hk] at ih below
        obtain ⟨hq, hkept⟩ := List.pairwise_cons.mp ih
        by_cases hs : p.same q = true
        · -- `p` stands for `q`, so it is below all that `q` is below
          have e : joinRun p (q :: kept) = p :: kept := by simp [joinRun, hs]
          rw [e]
          refine List.pairwise_cons.mpr ⟨fun r hr => ?_, hkept⟩
          exact TransCmp.lt_of_eq_of_lt (Path.compare_eq_iff.mpr hs) (hq r hr)
        · have e : joinRun p (q :: kept) = p :: q :: kept := by simp [joinRun, hs]
          have hpq : p.compare q = .lt :=
            (Path.lt_or_same_of_le (below q List.mem_cons_self)).resolve_right hs
          rw [e]
          refine List.pairwise_cons.mpr ⟨fun r hr => ?_, ih⟩
          rcases List.mem_cons.mp hr with rfl | hr
          · exact hpq
          · exact TransCmp.lt_trans hpq (hq r hr)

/-! ### `pathSet` -/

theorem mem_of_mem_pathSet {p : Path} {paths : List Path} (h : p ∈ pathSet paths) : p ∈ paths :=
  List.mem_mergeSort.mp (mem_of_mem_foldr_joinRun h)

theorem exists_same_mem_pathSet {p : Path} {paths : List Path} (h : p ∈ paths) :
    ∃ q ∈ pathSet paths, p.same q = true :=
  exists_same_mem_foldr_joinRun (List.mem_mergeSort.mpr h)

theorem pathSet_ne_nil {paths : List Path} : pathSet paths ≠ [] ↔ paths ≠ [] := by
  simp only [ne_eq, List.eq_nil_iff_forall_not_mem, not_forall, not_not]
  constructor
  · rintro ⟨p, hp⟩
    exact ⟨p, mem_of_mem_pathSet hp⟩
  · rintro ⟨p, hp⟩
    obtain ⟨q, hq, -⟩ := exists_same_mem_pathSet hp
    exact ⟨q, hq⟩

theorem ascending_pathSet (paths : List Path) : Ascending (pathSet paths) :=
  ascending_foldr_joinRun (List.pairwise_mergeSort Path.le_trans Path.le_total paths)

theorem mem_pathSet {p : Path} {paths : List Path} (hs : Spelled paths) :
    p ∈ pathSet paths ↔ p ∈ paths := by
  refine ⟨mem_of_mem_pathSet, fun h => ?_⟩
  obtain ⟨q, hq, hpq⟩ := exists_same_mem_pathSet h
  rwa [hs p h q (mem_of_mem_pathSet hq) hpq]

theorem length_foldr_joinRun_le : ∀ paths : List Path,
    (paths.foldr joinRun []).length ≤ paths.length
  | [] => Nat.le_refl _
  | p :: rest => by
      have ih := length_foldr_joinRun_le rest
      rw [List.foldr_cons, List.length_cons]
      rcases joinRun_eq_cons p (rest.foldr joinRun []) with e | ⟨q, kept, hk, -, e⟩
      · rw [e, List.length_cons]
        omega
      · rw [e, List.length_cons]
        rw [hk, List.length_cons] at ih
        omega

theorem length_pathSet_le (paths : List Path) : (pathSet paths).length ≤ paths.length := by
  have h := length_foldr_joinRun_le (paths.mergeSort Path.le)
  rwa [List.length_mergeSort] at h

theorem pathSet_of_ascending {paths : List Path} (h : Ascending paths) : pathSet paths = paths :=
  eq_of_pairwise_lt (ascending_pathSet paths) h fun _ => mem_pathSet h.spelled

/-- The set of some paths does not depend on their order, if none has two spellings. -/
theorem pathSet_eq_of_perm {paths others : List Path} (h : paths.Perm others)
    (hs : Spelled paths) : pathSet paths = pathSet others := by
  have sorted (l : List Path) : (l.mergeSort Path.le).Pairwise (fun p q => p.le q = true) :=
    List.pairwise_mergeSort Path.le_trans Path.le_total l
  have e : paths.mergeSort Path.le = others.mergeSort Path.le := by
    refine List.Perm.eq_of_pairwise (fun p q hp hq hpq hqp => ?_) (sorted _) (sorted _)
      ((List.mergeSort_perm _ _).trans (h.trans (List.mergeSort_perm _ _).symm))
    refine hs p (List.mem_mergeSort.mp hp) q (h.mem_iff.mpr (List.mem_mergeSort.mp hq)) ?_
    exact Path.compare_eq_iff.mp (cmp_eq_of_ne_gt Path.compare hpq hqp)
  rw [pathSet_eq_foldr, pathSet_eq_foldr, e]

end ArchReview

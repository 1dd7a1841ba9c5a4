import ArchReview.Proofs.Graph.CycleSoundness
import ArchReview.Proofs.Graph.FirstRoot
import Mathlib.Logic.Relation

/-!
# Files that import each other

Two files that import each other make a cycle of two.  The search that starts at one of them does
not always report it: it looks at imports in order, and when an earlier one leads to the other file
without coming back (`Detour`), that file is visited from there, and the short cycle is never on the
trail.

**Mutual imports** (`cyclesFrom_mutual`).  The search from `u` reports the cycle of `u` and `v` once
when there is no detour, and not at all when there is one.

Below a first root `u`, that file is at the bottom of every trail it is on (`Search.Below`).  A
round through `u` and `v` alone is closed only while the trail is `u`, `v`; so all depends on
whether `v` is entered from `u` itself, which a detour prevents (`Search.Below.visited_of_detour`)
and nothing else does (`Search.Below.eq_of_not_detour`).
-/

namespace ArchReview.Graph

/-- From `p` to `q` along imports that do not lead to `u`. -/
def ReachesBeside (g : Graph) (u : Path) : Path → Path → Prop :=
  Relation.ReflTransGen fun p q => q ∈ g.successors p ∧ q ≠ u

/-- An import of `u` that is looked at before `v` leads to `v` without coming back to `u`. -/
def Detour (g : Graph) (u v : Path) : Prop :=
  ∃ w ∈ g.successors u, w ≠ u ∧ w.compare v = .lt ∧ g.ReachesBeside u w v

end ArchReview.Graph

namespace ArchReview.Search

/-! ### The trail of a round of two -/

section
variable {g : Graph} {visited : List Path} {node next u v : Path} {more : List Path}
  {rest : List Visit} {cycles : List (List Path)}

/-- A round through `u` and `v` alone is closed above these two files only. -/
theorem Below.files_eq_of_round (hne : u ≠ v)
    (h : Below g u ⟨visited, ⟨node, next :: more⟩ :: rest, cycles⟩)
    (ht : next ∈ filesOf (⟨node, more⟩ :: rest))
    (hround : ∀ p, p ∈ roundFrom (⟨node, more⟩ :: rest) next ↔ p = u ∨ p = v) :
    node :: filesOf rest = [v, u] := by
  obtain ⟨pre, hpiece, e⟩ := h.coherent.roundFrom_eq ht
  have hmem : ∀ p, p ∈ pre ++ [next] ↔ p = u ∨ p = v := fun p => by
    rw [← hround p, e]
    simp [or_comm]
  obtain ⟨hfiles, rfl, hbottom⟩ := h.files_eq hpiece ((hmem u).mpr (Or.inl rfl))
  change node :: filesOf rest = pre ++ [next] at hfiles
  -- the files of the round other than `u` are `v` alone, and none comes twice
  have hpre : ∀ p, p ∈ pre ↔ p = v := fun p => by
    refine ⟨fun hp => ?_, ?_⟩
    · refine ((hmem p).mp (List.mem_append_left _ hp)).resolve_left ?_
      rintro rfl
      exact hbottom hp
    · rintro rfl
      refine (List.mem_append.mp ((hmem p).mpr (Or.inr rfl))).resolve_right fun hp => hne ?_
      exact (List.mem_singleton.mp hp).symm
  have hnodup : pre.Nodup := by
    have hn : (node :: filesOf rest).Nodup := h.coherent.advance.trail_nodup
    rw [hfiles] at hn
    exact (List.nodup_append.mp hn).1
  have hone : pre.Perm [v] :=
    (List.perm_ext_iff_of_nodup hnodup (List.nodup_singleton v)).mpr fun p => by
      rw [hpre p, List.mem_singleton]
  rw [hfiles, List.perm_singleton.mp hone]
  rfl

/-- With nothing but `u` on the trail, what is reached beside `u` from a visited file is visited. -/
theorem Below.visited_of_reaches {s : Search} {pending : List Path} (h : Below g u s)
    (ht : s.trail = [⟨u, pending⟩]) {w q : Path} (hw : w ∈ s.visited) (hne : w ≠ u)
    (hq : g.ReachesBeside u w q) : q ∈ s.visited ∧ q ≠ u := by
  induction hq with
  | refl => exact ⟨hw, hne⟩
  | tail _ hpq ih =>
      refine ⟨?_, hpq.2⟩
      rcases h.seen _ ih.1 _ hpq.1 with h' | ⟨v, hv, rfl, -⟩
      · exact h'
      · rw [ht] at hv
        exact absurd (by rw [List.mem_singleton.mp hv]) ih.2

/-- What stands before a successor still to be looked at has been visited. -/
theorem Below.visited_of_lt {s : Search} (h : Below g u s)
    (ht : s.trail = [⟨u, v :: more⟩]) {w : Path} (hw : w ∈ g.successors u)
    (hlt : w.compare v = .lt) : w ∈ s.visited := by
  have hpend : (v :: more) <:+ g.successors u :=
    h.coherent.pending ⟨u, v :: more⟩ (by rw [ht]; exact List.mem_cons_self)
  have hasc : Ascending (v :: more) := (g.ascending_successors u).sublist hpend.sublist
  rcases h.seen u h.visited w hw with h' | ⟨x, hx, -, hxw⟩
  · exact h'
  · rw [ht] at hx
    rw [List.mem_singleton.mp hx] at hxw
    rcases List.mem_cons.mp hxw with rfl | hxw
    · exact absurd rfl (Path.ne_of_lt hlt)
    · have hvw := (List.pairwise_cons.mp hasc).1 w hxw
      exact absurd rfl (Path.ne_of_lt (Std.TransCmp.lt_trans hlt hvw))

/-- **After a detour, `v` is not entered from `u`.** -/
theorem Below.visited_of_detour {s : Search} (h : Below g u s) (hd : g.Detour u v)
    (ht : s.trail = [⟨u, v :: more⟩]) : v ∈ s.visited := by
  obtain ⟨w, hw, hne, hlt, hreach⟩ := hd
  exact (h.visited_of_reaches ht (h.visited_of_lt ht hw hlt) hne hreach).1

/-- Every file of a trail is reached from the one above `u`. -/
theorem reachesBeside_of_isChain {w : Path} :
    ∀ {files : List Path}, (files ++ [w]).IsChain (fun p q => p ∈ g.successors q) → u ∉ files →
      ∀ p ∈ files ++ [w], g.ReachesBeside u w p
  | [], _, _, p, hp => by
      rw [List.mem_singleton.mp hp]
      exact .refl
  | x :: files, hc, hu, p, hp => by
      obtain ⟨hx, hc⟩ := List.isChain_cons.mp hc
      have ih := reachesBeside_of_isChain hc fun h => hu (List.mem_cons_of_mem _ h)
      rcases List.mem_cons.mp hp with rfl | hp
      · obtain ⟨y, hy⟩ : ∃ y, y ∈ (files ++ [w]).head? := by
          cases files <;> exact ⟨_, rfl⟩
        refine (ih y (List.mem_of_mem_head? hy)).tail ⟨hx y hy, ?_⟩
        rintro rfl
        exact hu List.mem_cons_self
      · exact ih p hp

/-- The file above `u` leads to all others of the trail, and it was looked at before whatever `u`
has yet to look at. -/
theorem Below.reaches_of_trail {s : Search} (h : Below g u s) {pre : List Visit} {x y : Visit}
    (e : s.trail = pre ++ [y, x]) (hu : x.node = u) :
    y.node ≠ u ∧ (∀ p ∈ filesOf (pre ++ [y]), g.ReachesBeside u y.node p) ∧
      (y.node :: x.pending) <:+ g.successors u := by
  have hfiles : filesOf s.trail = filesOf pre ++ [y.node] ++ [u] := by
    rw [e, ← hu]
    simp [filesOf]
  have hbottom : u ∉ filesOf pre ++ [y.node] := by
    have hb := h.bottom
    rwa [hfiles, List.dropLast_concat] at hb
  have hchain : (filesOf pre ++ [y.node]).IsChain fun p q => p ∈ g.successors q := by
    have hc := h.coherent.isChain_filesOf
    rw [hfiles] at hc
    exact List.IsChain.prefix hc (List.prefix_append _ _)
  refine ⟨fun hy => ?_, fun p hp => ?_, ?_⟩
  · exact hbottom (List.mem_append_right _ (List.mem_singleton.mpr hy.symm))
  · refine reachesBeside_of_isChain hchain (fun hm => hbottom (List.mem_append_left _ hm)) p ?_
    simpa [filesOf] using hp
  · have hl := h.coherent.linked
    rw [e] at hl
    rw [← hu]
    exact (List.isChain_cons_cons.mp (hl.suffix (List.suffix_append _ _))).1

/-- **Without a detour, `v` is entered from `u`.** -/
theorem Below.eq_of_not_detour (hd : ¬ g.Detour u v) (huv : v ∈ g.successors u)
    (h : Below g u ⟨visited, ⟨node, v :: more⟩ :: rest, cycles⟩) (hv : v ∉ visited) :
    node = u ∧ rest = [] := by
  obtain ⟨x, hx, hxu, hpend⟩ := (h.seen u h.visited v huv).resolve_left hv
  rcases h.trail_eq hx hxu with e | ⟨pre, y, e⟩
  · obtain ⟨rfl, rfl⟩ := List.cons.inj e
    exact ⟨hxu, rfl⟩
  · -- otherwise the way from the file above `u` to `node`, and on to `v`, is a detour
    obtain ⟨hne, hreach, hlink⟩ := h.reaches_of_trail e hxu
    have hasc : Ascending (y.node :: x.pending) :=
      (g.ascending_successors u).sublist hlink.sublist
    have hnode : node ∈ filesOf (pre ++ [y]) := by
      cases pre with
      | nil =>
          rw [← (List.cons.inj e).1]
          exact List.mem_cons_self
      | cons z pre =>
          rw [List.cons_append, filesOf_cons, ← (List.cons.inj e).1]
          exact List.mem_cons_self
    refine absurd ⟨y.node, hlink.subset List.mem_cons_self, hne,
      (List.pairwise_cons.mp hasc).1 v hpend, ?_⟩ hd
    refine (hreach node hnode).tail ⟨h.coherent.next_mem_successors, ?_⟩
    rintro rfl
    exact hv h.visited

end

/-! ### With a detour -/

/-- The cycle of `u` and `v` alone is recorded. -/
def Recorded (u v : Path) (s : Search) : Prop := ∃ c ∈ s.cycles, sameMembers [u, v] c = true

/-- The cycle is not recorded, and `v` does not stand above `u`. -/
structure Missed (u v : Path) (s : Search) : Prop where
  apart : ¬ [v, u] <:+ filesOf s.trail
  unrecorded : ¬ Recorded u v s

theorem Missed.move {g : Graph} {u v : Path} (hne : u ≠ v) (hd : g.Detour u v) {s t : Search}
    (m : Move g s t) (hs : Below g u s) (h : Missed u v s) : Missed u v t := by
  cases m with
  | leave => exact ⟨fun ha => h.apart (ha.trans (List.suffix_cons _ _)), h.unrecorded⟩
  | known _ _ => exact ⟨h.apart, h.unrecorded⟩
  | pass _ _ => exact ⟨h.apart, h.unrecorded⟩
  | @found visited node next more rest cycles ht _ =>
      refine ⟨h.apart, ?_⟩
      rintro ⟨c, hc, hsame⟩
      rcases List.mem_append.mp hc with hc | hc
      · exact h.unrecorded ⟨c, hc, hsame⟩
      · rw [List.mem_singleton.mp hc] at hsame
        refine h.apart ?_
        rw [filesOf_cons, hs.files_eq_of_round hne ht fun p => ?_]
        rw [← (rotateToSmallest_isRotated _).mem_iff, ← sameMembers_iff.mp hsame p]
        simp
  | @enter visited node next more rest cycles hv =>
      refine ⟨fun ha => ?_, h.unrecorded⟩
      rcases List.suffix_cons_iff.mp ha with e | ha
      · change [v, u] = next :: node :: filesOf rest at e
        simp only [List.cons.injEq] at e
        obtain ⟨rfl, rfl, e⟩ := e
        obtain rfl : rest = [] := List.map_eq_nil_iff.mp e.symm
        exact hv (hs.visited_of_detour hd rfl)
      · exact h.apart ha

theorem Missed.root {g : Graph} {u v : Path} {s : Search} (hs : s.trail = [])
    (h : ¬ Recorded u v s) (p : Path) : Missed u v (s.enter g p) where
  apart ha := by
    rw [enter, hs] at ha
    exact absurd ha.length_le (by simp)
  unrecorded := h

/-! ### Without one -/

/-- Above `u` stands `v`, and the way back from it has not been looked at. -/
def Awaiting (u v : Path) (trail : List Visit) : Prop :=
  ∃ pv pu, u ∈ pv ∧ [⟨v, pv⟩, ⟨u, pu⟩] <:+ trail

theorem not_awaiting_nil {u v : Path} : ¬ Awaiting u v [] :=
  fun ⟨_, _, _, hs⟩ => List.cons_ne_nil _ _ (List.suffix_nil.mp hs)

theorem Awaiting.advance {u v node next : Path} {more : List Path} {rest : List Visit}
    (h : Awaiting u v (⟨node, next :: more⟩ :: rest)) :
    (next = u ∧ node = v ∧ ∃ pu, rest = [⟨u, pu⟩]) ∨ Awaiting u v (⟨node, more⟩ :: rest) := by
  obtain ⟨pv, pu, hu, hs⟩ := h
  rcases List.suffix_cons_iff.mp hs with e | hs
  · simp only [List.cons.injEq, Visit.mk.injEq] at e
    obtain ⟨⟨rfl, rfl⟩, rfl⟩ := e
    rcases List.mem_cons.mp hu with rfl | hu
    · exact Or.inl ⟨rfl, rfl, pu, rfl⟩
    · exact Or.inr ⟨more, pu, hu, List.suffix_rfl⟩
  · exact Or.inr ⟨pv, pu, hu, hs.trans (List.suffix_cons _ _)⟩

theorem Awaiting.cons {u v : Path} {trail : List Visit} (h : Awaiting u v trail) (x : Visit) :
    Awaiting u v (x :: trail) := by
  obtain ⟨pv, pu, hu, hs⟩ := h
  exact ⟨pv, pu, hu, hs.trans (List.suffix_cons _ _)⟩

/-- Once `v` is visited, the cycle is recorded or will be. -/
def Promised (u v : Path) (s : Search) : Prop :=
  v ∈ s.visited → Recorded u v s ∨ Awaiting u v s.trail

theorem roundFrom_pair {u v : Path} (hne : u ≠ v) (pv pu : List Path) :
    roundFrom [⟨v, pv⟩, ⟨u, pu⟩] u = [u, v] := by
  simp [roundFrom, hne.symm]

theorem Promised.move {g : Graph} {u v : Path} (hne : u ≠ v) (hd : ¬ g.Detour u v)
    (huv : v ∈ g.successors u) (hvu : u ∈ g.successors v) {s t : Search} (m : Move g s t)
    (hs : Below g u s) (h : Promised u v s) : Promised u v t := by
  cases m with
  | leave =>
      intro hv
      rcases h hv with hr | ⟨pv, pu, hu, hsuf⟩
      · exact Or.inl hr
      · rcases List.suffix_cons_iff.mp hsuf with e | hsuf
        · simp only [List.cons.injEq, Visit.mk.injEq] at e
          rw [e.1.2] at hu
          cases hu
        · exact Or.inr ⟨pv, pu, hu, hsuf⟩
  | known _ hk =>
      intro hv
      rcases (h hv).imp_right Awaiting.advance with hr | ⟨rfl, rfl, pu, rfl⟩ | hw
      · exact Or.inl hr
      · rw [roundFrom_pair hne] at hk
        exact Or.inl hk
      · exact Or.inr hw
  | found _ _ =>
      intro hv
      rcases (h hv).imp_right Awaiting.advance with ⟨c, hc, hsame⟩ | ⟨rfl, rfl, pu, rfl⟩ | hw
      · exact Or.inl ⟨c, List.mem_append_left _ hc, hsame⟩
      · rw [roundFrom_pair hne]
        refine Or.inl ⟨_, List.mem_append_right _ List.mem_cons_self, ?_⟩
        refine sameMembers_iff.mpr fun p => ?_
        exact (rotateToSmallest_isRotated _).mem_iff.symm
      · exact Or.inr hw
  | pass ht _ =>
      intro hv
      rcases (h hv).imp_right Awaiting.advance with hr | ⟨rfl, rfl, pu, rfl⟩ | hw
      · exact Or.inl hr
      · exact absurd (by simp) ht
      · exact Or.inr hw
  | @enter visited node next more rest cycles hn =>
      intro hv
      rcases List.mem_cons.mp hv with rfl | hv
      · obtain ⟨rfl, rfl⟩ := hs.eq_of_not_detour hd huv hn
        exact Or.inr ⟨_, _, hvu, List.suffix_rfl⟩
      · rcases (h hv).imp_right Awaiting.advance with hr | ⟨rfl, -, -⟩ | hw
        · exact Or.inl hr
        · exact absurd hs.visited hn
        · exact Or.inr (hw.cons _)

/-- When the trail is empty, `v` has been visited, as a successor of `u`. -/
theorem Promised.root {g : Graph} {u v : Path} {s : Search} (huv : v ∈ g.successors u)
    (h : Promised u v s) (hs : s.trail = []) (hb : Below g u s) (p : Path) :
    Promised u v (s.enter g p) := by
  intro _
  rcases hb.seen u hb.visited v huv with hv | ⟨x, hx, -⟩
  · rcases h hv with hr | hw
    · exact Or.inl hr
    · rw [hs] at hw
      exact absurd hw not_awaiting_nil
  · rw [hs] at hx
    cases hx

end ArchReview.Search

namespace ArchReview.Graph

theorem Proper.rootsFrom_of_mem {g : Graph} (hg : g.Proper) {u : Path} (hu : u ∈ g.nodes) :
    g.rootsFrom u = u :: g.nodes.filter (· != u) := by
  have hfind : g.nodes.find? (fun n => n.same u) = some u := by
    obtain ⟨r, hr⟩ : ∃ r, g.nodes.find? (fun n => n.same u) = some r :=
      Option.isSome_iff_exists.mp (List.find?_isSome.mpr ⟨u, hu, Path.same_refl u⟩)
    have hsame : r.same u = true := by simpa using List.find?_some hr
    rw [hr, hg.ascending.eq_of_same (List.mem_of_find?_eq_some hr) hu hsame]
  rw [rootsFrom, hfind]

/-- **The search from `u` reports the cycle of `u` and `v` exactly when there is no detour.** -/
theorem Proper.exists_mem_cyclesFrom_iff {g : Graph} (hg : g.Proper) {u v : Path} (hne : u ≠ v)
    (huv : (u, v) ∈ g.edges) (hvu : (v, u) ∈ g.edges) :
    (∃ c ∈ g.cyclesFrom u, sameMembers [u, v] c = true) ↔ ¬ g.Detour u v := by
  obtain ⟨hu, huv⟩ := mem_edges.mp huv
  obtain ⟨hv, hvu⟩ := mem_edges.mp hvu
  have hperm := hg.rootsFrom_perm u
  obtain ⟨t, w, -, -, e⟩ := hg.exists_sweep hperm
  have hvisited : v ∈ t.visited := w.visited.2 v (hperm.mem_iff.mpr hv)
  have hrec : (∃ c ∈ g.cyclesFrom u, sameMembers [u, v] c = true) ↔ Search.Recorded u v t := by
    rw [cyclesFrom_eq, e]
    simp only [Search.Recorded, List.mem_mergeSort]
  rw [hg.rootsFrom_of_mem hu] at w hperm
  have hroots : ∀ r ∈ u :: g.nodes.filter (· != u), r ∈ g.nodes := fun r hr => hperm.mem_iff.mp hr
  rw [hrec]
  refine ⟨fun hr hd => ?_, fun hd => ?_⟩
  · have hnone : ¬ Search.Recorded u v Search.start := fun ⟨_, hc, _⟩ => by cases hc
    have hmissed := w.keeps_below hg hroots (P := Search.Missed u v) (.root rfl hnone u)
      (Search.Missed.move hne hd) fun hs _ _ h => .root hs h.unrecorded _
    exact hmissed.1.unrecorded hr
  · have ⟨hpromised, hend⟩ := w.keeps_below hg hroots (P := Search.Promised u v)
      (fun hv => absurd (List.mem_singleton.mp hv).symm hne)
      (Search.Promised.move hne hd huv hvu) fun hs _ hb h => h.root huv hs hb _
    rcases hpromised hvisited with hr | hs
    · exact hr
    · rw [hend] at hs
      exact absurd hs Search.not_awaiting_nil

/-! ### How often it is reported -/

theorem countP_le_one {α : Type} {P : α → Bool} :
    ∀ {l : List α}, l.Pairwise (fun a b => ¬ (P a = true ∧ P b = true)) → l.countP P ≤ 1
  | [], _ => Nat.zero_le _
  | a :: l, h => by
      obtain ⟨ha, hl⟩ := List.pairwise_cons.mp h
      by_cases hP : P a = true
      · have hnone : l.countP P = 0 := List.countP_eq_zero.mpr fun b hb hb' => ha b hb ⟨hP, hb'⟩
        rw [List.countP_cons_of_pos hP, hnone]
      · rw [List.countP_cons_of_neg hP]
        exact countP_le_one hl

/-- The number of reported cycles through `u` and `v` alone. -/
theorem Proper.countP_cyclesFrom {g : Graph} (hg : g.Proper) {u v : Path} (hne : u ≠ v)
    (huv : (u, v) ∈ g.edges) (hvu : (v, u) ∈ g.edges) :
    ((g.cyclesFrom u).countP (sameMembers [u, v]) = 1 ↔ ¬ g.Detour u v) ∧
      ((g.cyclesFrom u).countP (sameMembers [u, v]) = 0 ↔ g.Detour u v) := by
  have hiff := hg.exists_mem_cyclesFrom_iff hne huv hvu
  have hapart : (g.cyclesFrom u).Pairwise fun c d => ¬ ∀ p, p ∈ c ↔ p ∈ d := by
    rw [cyclesFrom_eq]
    exact (hg.soundReport_cyclesInOrder (hg.rootsFrom_perm u)).apart
  have hle : (g.cyclesFrom u).countP (sameMembers [u, v]) ≤ 1 :=
    countP_le_one <| hapart.imp fun hcd h => hcd fun p =>
      (sameMembers_iff.mp h.1 p).symm.trans (sameMembers_iff.mp h.2 p)
  rw [← List.countP_pos_iff] at hiff
  refine ⟨⟨fun h => hiff.mp (by omega), fun h => ?_⟩, fun h => ?_, fun h => ?_⟩
  · have := hiff.mpr h
    omega
  · by_contra hd
    have := hiff.mpr hd
    omega
  · by_contra h0
    exact hiff.mp (by omega) h

/-- **Mutual imports.**  The search from one of two files that import each other reports their
cycle once, unless a detour leads from that file to the other; then it does not report it. -/
theorem cyclesFrom_mutual (outlines : List Outline) (policy : SelfLoops) {u v : Path} (hne : u ≠ v)
    (huv : (u, v) ∈ (ofOutlines outlines policy).edges)
    (hvu : (v, u) ∈ (ofOutlines outlines policy).edges) :
    let g := ofOutlines outlines policy
    ((g.cyclesFrom u).countP (sameMembers [u, v]) = 1 ↔ ¬ g.Detour u v) ∧
      ((g.cyclesFrom u).countP (sameMembers [u, v]) = 0 ↔ g.Detour u v) ∧
      ((g.cyclesFrom v).countP (sameMembers [v, u]) = 1 ↔ ¬ g.Detour v u) ∧
      ((g.cyclesFrom v).countP (sameMembers [v, u]) = 0 ↔ g.Detour v u) := by
  have hg := ofOutlines_proper outlines policy
  have hu := hg.countP_cyclesFrom hne huv hvu
  have hv := hg.countP_cyclesFrom hne.symm hvu huv
  exact ⟨hu.1, hu.2, hv.1, hv.2⟩

/-! ### Three scripts -/

/-- From `c`, where there is no detour, the cycle of `b` and `c` is reported once. -/
theorem cyclesFrom_mutual_threeScripts :
    (⟨"c.ts"⟩, ⟨"b.ts"⟩) ∈ (ofOutlines threeScripts .suppress).edges ∧
      (⟨"b.ts"⟩, ⟨"c.ts"⟩) ∈ (ofOutlines threeScripts .suppress).edges ∧
      ((ofOutlines threeScripts .suppress).cyclesFrom ⟨"c.ts"⟩).countP
        (sameMembers [⟨"c.ts"⟩, ⟨"b.ts"⟩]) = 1 := by
  obtain ⟨hbc, hcb⟩ := edges_threeScripts
  have first : ∀ e ∈ threeScriptEdges, e.1.same ⟨"c.ts"⟩ = true → ¬ e.2.compare ⟨"b.ts"⟩ = .lt := by
    decide +kernel
  refine ⟨hcb, hbc, (cyclesFrom_mutual threeScripts .suppress (by decide) hcb hbc).1.mpr ?_⟩
  rintro ⟨w, hw, -, hlt, -⟩
  obtain ⟨e, he, hs, rfl⟩ := mem_successors_threeScripts.mp hw
  exact first e he hs hlt

/-- From `b`, where there is one, it is not reported. -/
theorem cyclesFrom_misses_mutual :
    (⟨"b.ts"⟩, ⟨"c.ts"⟩) ∈ (ofOutlines threeScripts .suppress).edges ∧
      (⟨"c.ts"⟩, ⟨"b.ts"⟩) ∈ (ofOutlines threeScripts .suppress).edges ∧
      ((ofOutlines threeScripts .suppress).cyclesFrom ⟨"b.ts"⟩).countP
        (sameMembers [⟨"b.ts"⟩, ⟨"c.ts"⟩]) = 0 := by
  obtain ⟨hbc, hcb⟩ := edges_threeScripts
  have hg := ofOutlines_proper threeScripts .suppress
  refine ⟨hbc, hcb, (hg.countP_cyclesFrom (by decide) hbc hcb).2.mpr ⟨⟨"a.ts"⟩, ?_⟩⟩
  have step : ⟨"c.ts"⟩ ∈ (ofOutlines threeScripts .suppress).successors ⟨"a.ts"⟩ :=
    mem_successors_threeScripts.mpr (by decide +kernel)
  exact ⟨mem_successors_threeScripts.mpr (by decide +kernel), by decide, by decide +kernel,
    .single ⟨step, by decide⟩⟩

end ArchReview.Graph

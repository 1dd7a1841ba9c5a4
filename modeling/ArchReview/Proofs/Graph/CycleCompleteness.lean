import ArchReview.Proofs.Graph.CycleSoundness

/-!
# Every cycle is met

**Completeness** (`closedWalk_meets_cycles`).  Every closed walk of the graph of some outlines has
a leg in common with a reported cycle, whichever root comes first; so no cycle is reported exactly
when there is none.

The argument is about the order in which the search leaves files.  When it leaves a file, each of
its successors has been left before, or the edge to it lies on a recorded cycle (`Settled`): a
successor on the trail closes a round through that edge, and any other is left before the file is.
Along a closed walk that avoids the recorded edges, files would be left ever earlier.

A round through the files of a recorded one is not recorded again, and its closing edge is not lost
by that: files are visited in one order, so the two rounds are the same.
-/

namespace ArchReview.Search

/-- The edge lies on one of the cycles. -/
def Covered (cycles : List (List Path)) (p q : Path) : Prop := ∃ c ∈ cycles, (p, q) ∈ legs c

/-- Files in the order in which they were left, the last one first: each edge out of one of them
leads to a file left before, or is covered. -/
def Settled (g : Graph) (cycles : List (List Path)) : List Path → Prop
  | []        => True
  | p :: left => (∀ q ∈ g.successors p, Covered cycles p q ∨ q ∈ left) ∧ Settled g cycles left

/-- Files on a trail below a file `above`: each edge out of one of them is still to be looked at,
covered, or leads to a file that was left or comes next on the trail. -/
def Looked (g : Graph) (cycles : List (List Path)) (left : List Path) :
    Option Path → List Visit → Prop
  | _, []            => True
  | above, v :: rest =>
    (∀ q ∈ g.successors v.node,
      q ∈ v.pending ∨ Covered cycles v.node q ∨ q ∈ left ∨ above = some q) ∧
    Looked g cycles left (some v.node) rest

/-- What is known of all files visited so far. -/
def Explored (g : Graph) (s : Search) : Prop :=
  ∃ left, (∀ p, p ∈ s.visited ↔ p ∈ left ∨ p ∈ filesOf s.trail) ∧
    Settled g s.cycles left ∧ Looked g s.cycles left none s.trail

theorem Covered.mono {cycles cycles' : List (List Path)} (h : cycles ⊆ cycles') {p q : Path}
    (hc : Covered cycles p q) : Covered cycles' p q := by
  obtain ⟨c, hc, hl⟩ := hc
  exact ⟨c, h hc, hl⟩

theorem Settled.mono {g : Graph} {cycles cycles' : List (List Path)} (h : cycles ⊆ cycles') :
    ∀ {left : List Path}, Settled g cycles left → Settled g cycles' left
  | [], _ => trivial
  | _ :: _, hs => ⟨fun q hq => (hs.1 q hq).imp_left (Covered.mono h), hs.2.mono h⟩

theorem Looked.mono {g : Graph} {cycles cycles' : List (List Path)} (h : cycles ⊆ cycles')
    {left left' : List Path} (hl : left ⊆ left') :
    ∀ {above : Option Path} {trail : List Visit}, Looked g cycles left above trail →
      Looked g cycles' left' above trail
  | _, [], _ => trivial
  | _, _ :: _, hk =>
      ⟨fun q hq => (hk.1 q hq).imp_right fun hq =>
          hq.imp (Covered.mono h) fun hq => hq.imp_left fun hq => hl hq,
        hk.2.mono h hl⟩

/-- Once the file above is left, nothing needs to come next on the trail. -/
theorem Looked.of_left {g : Graph} {cycles : List (List Path)} {left : List Path} {p : Path}
    (hp : p ∈ left) : ∀ {trail : List Visit}, Looked g cycles left (some p) trail →
      Looked g cycles left none trail
  | [], _ => trivial
  | _ :: _, hk => by
      refine ⟨fun q hq => ?_, hk.2⟩
      rcases hk.1 q hq with h | h | h | h
      · exact Or.inl h
      · exact Or.inr (Or.inl h)
      · exact Or.inr (Or.inr (Or.inl h))
      · exact Or.inr (Or.inr (Or.inl (Option.some.inj h ▸ hp)))

/-- The next successor of the last file has been dealt with. -/
theorem Looked.advance {g : Graph} {cycles : List (List Path)} {left : List Path}
    {node next : Path} {more : List Path} {rest : List Visit}
    (hk : Looked g cycles left none (⟨node, next :: more⟩ :: rest)) {above : Option Path}
    (hn : Covered cycles node next ∨ next ∈ left ∨ above = some next) :
    Looked g cycles left above (⟨node, more⟩ :: rest) := by
  refine ⟨fun q hq => ?_, hk.2⟩
  rcases hk.1 q hq with h | h | h | h
  · rcases List.mem_cons.mp h with rfl | h
    · exact Or.inr hn
    · exact Or.inl h
  · exact Or.inr (Or.inl h)
  · exact Or.inr (Or.inr (Or.inl h))
  · cases h

/-! ### What a move keeps -/

section
variable {g : Graph} {visited : List Path} {node next : Path} {more : List Path}
  {rest : List Visit} {cycles : List (List Path)}

/-- A round that is not recorded, for one through the same files is, has its closing edge on that
one. -/
theorem Coherent.covered_of_known
    (h : Coherent g ⟨visited, ⟨node, next :: more⟩ :: rest, cycles⟩)
    (ht : next ∈ filesOf (⟨node, more⟩ :: rest))
    (hk : ∃ c ∈ cycles, sameMembers (roundFrom (⟨node, more⟩ :: rest) next) c = true) :
    Covered cycles node next := by
  obtain ⟨c, hc, hs⟩ := hk
  obtain ⟨round, -, hround, -, rfl⟩ := h.met c hc
  have hrot := rotateToSmallest_isRotated round
  have e : roundFrom (⟨node, more⟩ :: rest) next = round :=
    eq_of_sublist_of_mem_iff (h.roundFrom_sublist ht) (List.nodup_reverse.mpr h.nodup) hround
      fun p => (sameMembers_iff.mp hs p).trans hrot.mem_iff
  refine ⟨_, hc, (mem_legs_of_isRotated hrot).mpr ?_⟩
  rw [← e]
  exact h.closing_mem_legs_roundFrom ht

end

/-- **Every move keeps a search explored.** -/
theorem Explored.move {g : Graph} {s t : Search} (m : Move g s t) (hs : Coherent g s)
    (h : Explored g s) : Explored g t := by
  obtain ⟨left, hsplit, hset, hlook⟩ := h
  cases m with
  | @leave visited node rest cycles =>
      refine ⟨node :: left, fun p => ?_, ⟨fun q hq => ?_, hset⟩, ?_⟩
      · rw [hsplit p, filesOf_cons, List.mem_cons, List.mem_cons]
        tauto
      · rcases hlook.1 q hq with hq | hq | hq | hq
        · cases hq
        · exact Or.inl hq
        · exact Or.inr hq
        · cases hq
      · exact (hlook.2.mono (List.Subset.refl _) (List.subset_cons_self _ _)).of_left
          List.mem_cons_self
  | known ht hk =>
      exact ⟨left, hsplit, hset, hlook.advance (Or.inl (hs.covered_of_known ht hk))⟩
  | found ht hn =>
      refine ⟨left, hsplit, hset.mono (List.subset_append_left _ _), ?_⟩
      refine (hlook.mono (List.subset_append_left _ _) (List.Subset.refl _)).advance (Or.inl ?_)
      refine ⟨_, List.mem_append_right _ List.mem_cons_self, ?_⟩
      rw [mem_legs_of_isRotated (rotateToSmallest_isRotated _)]
      exact hs.closing_mem_legs_roundFrom ht
  | pass ht hv =>
      have hl := ((hsplit _).mp hv).resolve_right ht
      exact ⟨left, hsplit, hset, hlook.advance (Or.inr (Or.inl hl))⟩
  | @enter visited node next more rest cycles hv =>
      refine ⟨left, fun p => ?_, hset, fun q hq => Or.inl hq, hlook.advance (Or.inr (Or.inr rfl))⟩
      rw [List.mem_cons, hsplit p, filesOf_cons, filesOf_cons, filesOf_cons, List.mem_cons,
        List.mem_cons, List.mem_cons]
      tauto

theorem Explored.root {g : Graph} {s : Search} (h : Explored g s) (hs : s.trail = []) (p : Path) :
    Explored g (s.enter g p) := by
  obtain ⟨left, hsplit, hset, -⟩ := h
  refine ⟨left, fun q => ?_, hset, ?_⟩
  · rw [enter, hs, List.mem_cons, hsplit q, hs, filesOf_cons, List.mem_cons]
    tauto
  · rw [enter, hs]
    exact ⟨fun q hq => Or.inl hq, trivial⟩

/-! ### Closed walks -/

/-- A closed walk without covered legs never passes through a file that was left. -/
theorem Settled.not_mem_walk {g : Graph} {cycles : List (List Path)} {walk : List Path}
    (hw : ∀ e ∈ legs walk, e.2 ∈ g.successors e.1)
    (hc : ∀ e ∈ legs walk, ¬ Covered cycles e.1 e.2) :
    ∀ {left : List Path}, Settled g cycles left → ∀ p ∈ walk, p ∉ left
  | [], _, _, _ => List.not_mem_nil
  | r :: left, hs, p, hp => by
      have ih := hs.2.not_mem_walk hw hc
      intro hr
      rcases List.mem_cons.mp hr with rfl | hl
      · -- the walk goes on to a file that was left before `p`
        obtain ⟨q, hq⟩ := exists_leg_from hp
        have hleft := (hs.1 q (hw (p, q) hq)).resolve_left (hc (p, q) hq)
        exact ih q (mem_of_mem_legs hq).2 hleft
      · exact ih p hp hl

end ArchReview.Search

namespace ArchReview.Graph

theorem Proper.closedWalk_meets_cyclesInOrder {g : Graph} (hg : g.Proper) {roots : List Path}
    (hr : roots.Perm g.nodes) {walk : List Path} (hw : g.IsClosedWalk walk) :
    ∃ e ∈ legs walk, ∃ c ∈ g.cyclesInOrder roots, e ∈ legs c := by
  obtain ⟨t, w, -, ht, e⟩ := hg.exists_sweep hr
  have start : Search.Explored g Search.start := ⟨[], by simp [Search.start], trivial, trivial⟩
  obtain ⟨⟨-, left, hsplit, hset, -⟩, -⟩ :=
    w.keeps (P := fun s => Search.Coherent g s ∧ Search.Explored g s)
      (fun m h => ⟨h.1.move hg m, h.2.move m h.1⟩)
      (fun hr' hs hv h => ⟨h.1.root (hr.mem_iff.mp hr') hs hv, h.2.root hs _⟩) rfl
      ⟨Search.Coherent.start g, start⟩
  have hleft : ∀ p ∈ g.nodes, p ∈ left := fun p hp => by
    have hv := (hsplit p).mp (w.visited.2 p (hr.mem_iff.mpr hp))
    rw [ht] at hv
    exact hv.resolve_right List.not_mem_nil
  by_contra hno
  obtain ⟨p, hp⟩ := List.exists_mem_of_ne_nil walk hw.1
  refine hset.not_mem_walk (fun e he => (mem_edges.mp (hw.2 e he)).2) (fun l hl hc => hno ?_) p hp
    (hleft p (hw.mem_nodes hp))
  obtain ⟨c, hc, hlc⟩ := hc
  exact ⟨l, hl, c, by rw [e]; exact List.mem_mergeSort.mpr hc, hlc⟩

/-- **Completeness.**  Whatever the files, the policy and the first root, every closed walk of the
graph has a leg on a reported cycle; no cycle is reported exactly when the graph has none. -/
theorem closedWalk_meets_cycles (outlines : List Outline) (policy : SelfLoops) :
    let g := ofOutlines outlines policy
    (∀ walk, g.IsClosedWalk walk → ∃ e ∈ legs walk, ∃ c ∈ g.cycles, e ∈ legs c) ∧
      (∀ root walk, g.IsClosedWalk walk →
        ∃ e ∈ legs walk, ∃ c ∈ g.cyclesFrom root, e ∈ legs c) ∧
      (g.cycles = [] ↔ ¬ ∃ c, g.IsCycle c) := by
  intro g
  have hg : g.Proper := ofOutlines_proper outlines policy
  have all : ∀ walk, g.IsClosedWalk walk → ∃ e ∈ legs walk, ∃ c ∈ g.cycles, e ∈ legs c :=
    fun walk hw => hg.closedWalk_meets_cyclesInOrder (List.Perm.refl _) hw
  refine ⟨all, fun root walk hw => ?_, fun hnil => ?_, fun hno => ?_⟩
  · rw [cyclesFrom_eq]
    exact hg.closedWalk_meets_cyclesInOrder (hg.rootsFrom_perm root) hw
  · rintro ⟨c, hc⟩
    obtain ⟨_, -, d, hd, -⟩ := all c hc.1
    rw [hnil] at hd
    cases hd
  · refine List.eq_nil_iff_forall_not_mem.mpr fun c hc => hno ⟨c, ?_⟩
    exact (hg.soundReport_cyclesInOrder (List.Perm.refl _)).isCycle c hc

/-- The closed walk between `b` and `c` is not itself reported from `b`; it shares a leg with the
cycle that is. -/
theorem closedWalk_meets_cycles_threeScripts :
    (ofOutlines threeScripts .suppress).IsClosedWalk [⟨"b.ts"⟩, ⟨"c.ts"⟩] ∧
      ∃ e ∈ legs [⟨"b.ts"⟩, ⟨"c.ts"⟩],
        ∃ c ∈ (ofOutlines threeScripts .suppress).cyclesFrom ⟨"b.ts"⟩, e ∈ legs c := by
  have hw : (ofOutlines threeScripts .suppress).IsClosedWalk [⟨"b.ts"⟩, ⟨"c.ts"⟩] := by
    refine ⟨List.cons_ne_nil _ _, ?_⟩
    simpa [legs] using edges_threeScripts
  exact ⟨hw, (closedWalk_meets_cycles threeScripts .suppress).2.1 _ _ hw⟩

end ArchReview.Graph

import ArchReview.Proofs.Graph.CycleCompleteness
import ArchReview.Proofs.Graph.WithoutLoops

/-!
# Reported and suppressed loops

**Self-loops** (`ofOutlines_loopsApart`).  A graph in which loops are reported and one in which they
are suppressed differ in nothing but loops: the cycles of the first are those of the second and one
of a single file for each loop, and their chains are the same.

The search for cycles runs in both graphs at the same time.  Seen without loops
(`Search.withoutLoops`), a move in the first graph is a move in the second, unless it looks at a
loop: then nothing is seen (`Move.withoutLoops`).  So the second search ends where the first does
(`Sweep.withoutLoops`), with the same cycles of more than one file; that the others are the loops
follows from soundness and completeness of the first search.
-/

namespace ArchReview

namespace Search

/-! ### Searches are determined -/

/-- A move is the step that is made, if all files on the trail were visited. -/
theorem Move.step_eq {g : Graph} {s t : Search} (m : Move g s t)
    (hs : filesOf s.trail ⊆ s.visited) : s.step g = t := by
  cases m with
  | leave => rfl
  | known ht hk =>
      simp only [step]
      rw [if_pos (any_node_eq.mpr ht), record, if_pos (List.any_eq_true.mpr hk)]
  | found ht hn =>
      simp only [step]
      rw [if_pos (any_node_eq.mpr ht), record, if_neg]
      intro known
      obtain ⟨c, hc, h⟩ := List.any_eq_true.mp known
      exact hn c hc h
  | pass ht hv =>
      simp only [step]
      rw [if_neg fun h => ht (any_node_eq.mp h), if_pos (List.contains_iff_mem.mpr hv)]
  | @enter visited node next more rest cycles hv =>
      have ht : next ∉ filesOf (⟨node, more⟩ :: rest) := fun h => hv (hs h)
      simp only [step]
      rw [if_neg fun h => ht (any_node_eq.mp h), if_neg fun h => hv (List.contains_iff_mem.mp h)]
      rfl

theorem Run.unique {g : Graph} {s t t' : Search} (r : Run g s t) (r' : Run g s t') : t = t' := by
  induction r with
  | done h =>
      cases r' with
      | done _ => rfl
      | more h' _ => exact absurd h h'
  | more h _ ih =>
      cases r' with
      | done h' => exact absurd h' h
      | more _ r' => exact ih r'

theorem Sweep.unique {g : Graph} {roots : List Path} {s t t' : Search} (w : Sweep g roots s t)
    (w' : Sweep g roots s t') : t = t' := by
  induction w with
  | done _ =>
      cases w'
      rfl
  | skip h _ ih =>
      cases w' with
      | skip _ w' => exact ih w'
      | search h' _ _ => exact absurd h h'
  | search h r _ ih =>
      cases w' with
      | skip h' _ => exact absurd h' h
      | search _ r' w' =>
          cases r.unique r'
          exact ih w'

end Search

/-! ### Searches seen without loops -/

/-- A visit that does not look at its own file. -/
def Visit.withoutLoop (v : Visit) : Visit := ⟨v.node, v.pending.filter (v.node != ·)⟩

namespace Search

/-- A search as it is seen without loops. -/
def withoutLoops (s : Search) : Search :=
  ⟨s.visited, s.trail.map Visit.withoutLoop, s.cycles.filter fun c => c.length != 1⟩

theorem filesOf_withoutLoop (trail : List Visit) :
    filesOf (trail.map Visit.withoutLoop) = filesOf trail := by
  rw [filesOf, List.map_map]
  rfl

theorem roundFrom_withoutLoop (trail : List Visit) (p : Path) :
    roundFrom (trail.map Visit.withoutLoop) p = roundFrom trail p := by
  induction trail with
  | nil => rfl
  | cons v rest ih =>
      rw [List.map_cons, roundFrom, roundFrom, ih]
      rfl

section
variable {g : Graph} {visited : List Path} {node next : Path} {more : List Path}
  {rest : List Visit} {cycles : List (List Path)}

/-- A loop closes a round of one file. -/
theorem roundFrom_self : roundFrom (⟨node, more⟩ :: rest) node = [node] := by
  simp [roundFrom]

theorem rotateToSmallest_singleton (p : Path) : rotateToSmallest [p] = [p] :=
  List.isRotated_singleton_iff.mp (rotateToSmallest_isRotated [p])

/-- Any other successor on the trail closes a round of several. -/
theorem Coherent.length_ne_one
    (h : Coherent g ⟨visited, ⟨node, next :: more⟩ :: rest, cycles⟩)
    (ht : next ∈ filesOf (⟨node, more⟩ :: rest)) (hne : node ≠ next) {c : List Path}
    (hc : ∀ p, p ∈ roundFrom (⟨node, more⟩ :: rest) next → p ∈ c) : c.length ≠ 1 := by
  obtain ⟨hnode, hnext⟩ := mem_of_mem_legs (h.closing_mem_legs_roundFrom ht)
  intro hlen
  obtain ⟨p, rfl⟩ := List.length_eq_one_iff.mp hlen
  exact hne ((List.mem_singleton.mp (hc _ hnode)).trans (List.mem_singleton.mp (hc _ hnext)).symm)

/-- Looking at a successor other than the file itself is seen. -/
theorem withoutLoops_pending (hne : node ≠ next) :
    withoutLoops ⟨visited, ⟨node, next :: more⟩ :: rest, cycles⟩ =
      ⟨visited, ⟨node, next :: more.filter (node != ·)⟩ :: rest.map Visit.withoutLoop,
        cycles.filter fun c => c.length != 1⟩ := by
  simp [withoutLoops, Visit.withoutLoop, hne]

end

/-- **A move is seen as a move, unless it looks at a loop.** -/
theorem Move.withoutLoops {g : Graph} (hg : g.Linked) {s t : Search} (m : Move g s t)
    (h : Coherent g s) :
    t.withoutLoops = s.withoutLoops ∨ Move g.withoutLoops s.withoutLoops t.withoutLoops := by
  cases m with
  | leave => exact Or.inr .leave
  | @known visited node next more rest cycles ht hk =>
      by_cases hne : node = next
      · subst hne
        exact Or.inl (by simp [Search.withoutLoops, Visit.withoutLoop])
      · obtain ⟨c, hc, hs⟩ := hk
        have hlen := h.length_ne_one ht hne fun p => (sameMembers_iff.mp hs p).mp
        refine Or.inr ?_
        rw [withoutLoops_pending hne]
        refine .known ?_ ⟨c, List.mem_filter.mpr ⟨hc, bne_iff_ne.mpr hlen⟩, ?_⟩
        · exact (filesOf_withoutLoop (⟨node, more⟩ :: rest)).symm ▸ ht
        · exact (roundFrom_withoutLoop (⟨node, more⟩ :: rest) next).symm ▸ hs
  | @found visited node next more rest cycles ht hn =>
      by_cases hne : node = next
      · subst hne
        -- what is recorded for a loop has one file, and is not seen either
        refine Or.inl ?_
        simp [Search.withoutLoops, Visit.withoutLoop, roundFrom_self, rotateToSmallest_singleton]
      · have hlen := h.length_ne_one ht hne fun p =>
          (rotateToSmallest_isRotated _).mem_iff.mpr
        have round : roundFrom (Visit.withoutLoop ⟨node, more⟩ :: rest.map Visit.withoutLoop) next =
            roundFrom (⟨node, more⟩ :: rest) next :=
          roundFrom_withoutLoop (⟨node, more⟩ :: rest) next
        have seen : Search.withoutLoops ⟨visited, ⟨node, more⟩ :: rest,
            cycles ++ [rotateToSmallest (roundFrom (⟨node, more⟩ :: rest) next)]⟩ =
              ⟨visited, Visit.withoutLoop ⟨node, more⟩ :: rest.map Visit.withoutLoop,
                (cycles.filter fun c => c.length != 1) ++ [rotateToSmallest (roundFrom
                  (Visit.withoutLoop ⟨node, more⟩ :: rest.map Visit.withoutLoop) next)]⟩ := by
          simp [Search.withoutLoops, round, hlen]
        refine Or.inr ?_
        rw [withoutLoops_pending hne, seen]
        refine .found ?_ fun c hc => ?_
        · exact (filesOf_withoutLoop (⟨node, more⟩ :: rest)).symm ▸ ht
        · exact round.symm ▸ hn c (List.mem_of_mem_filter hc)
  | @pass visited node next more rest cycles ht hv =>
      have hne : node ≠ next := fun e => ht (e ▸ List.mem_cons_self)
      refine Or.inr ?_
      rw [withoutLoops_pending hne]
      exact .pass ((filesOf_withoutLoop (⟨node, more⟩ :: rest)).symm ▸ ht) hv
  | @enter visited node next more rest cycles hv =>
      -- a file on the trail was visited, so it is not entered from itself
      have hne : node ≠ next := fun e => hv (e ▸ h.trail_sublist.subset List.mem_cons_self)
      have hnext : next ∈ g.nodes := hg.mem_of_mem_successors h.next_mem_successors
      have seen : Search.withoutLoops
          ⟨next :: visited, ⟨next, g.successors next⟩ :: ⟨node, more⟩ :: rest, cycles⟩ =
            ⟨next :: visited, ⟨next, g.withoutLoops.successors next⟩ ::
              Visit.withoutLoop ⟨node, more⟩ :: rest.map Visit.withoutLoop,
              cycles.filter fun c => c.length != 1⟩ := by
        rw [hg.successors_withoutLoops hnext]
        rfl
      refine Or.inr ?_
      rw [withoutLoops_pending hne, seen]
      exact .enter hv

/-- **A run is seen as a run.** -/
theorem Run.withoutLoops {g : Graph} (hg : g.Linked) {s t : Search} (r : Run g s t)
    (h : Coherent g s) : Run g.withoutLoops s.withoutLoops t.withoutLoops := by
  induction r with
  | done hs => exact .done (List.map_eq_nil_iff.mpr hs)
  | @more s t hs _ ih =>
      have hm := move_step g hs
      have rest := ih (h.move hg.toProper hm)
      rcases hm.withoutLoops hg h with unseen | seen
      · rwa [unseen] at rest
      · -- a run makes steps, so the move that is seen has to be the step
        have visited : filesOf s.withoutLoops.trail ⊆ s.withoutLoops.visited := by
          rw [Search.withoutLoops, filesOf_withoutLoop]
          exact h.trail_sublist.subset
        rw [← seen.step_eq visited] at rest
        exact .more (fun e => hs (List.map_eq_nil_iff.mp e)) rest

theorem withoutLoops_enter {g : Graph} (hg : g.Linked) (s : Search) {p : Path} (hp : p ∈ g.nodes) :
    (s.enter g p).withoutLoops = s.withoutLoops.enter g.withoutLoops p := by
  rw [enter, enter, hg.successors_withoutLoops hp]
  rfl

/-- **A sweep is seen as a sweep.** -/
theorem Sweep.withoutLoops {g : Graph} (hg : g.Linked) {roots : List Path} {s t : Search}
    (w : Sweep g roots s t) (hroots : ∀ r ∈ roots, r ∈ g.nodes) (h : Coherent g s)
    (hs : s.trail = []) : Sweep g.withoutLoops roots s.withoutLoops t.withoutLoops := by
  induction w with
  | done s => exact .done _
  | skip hv _ ih =>
      exact .skip hv (ih (fun r hr => hroots r (List.mem_cons_of_mem _ hr)) h hs)
  | search hv r _ ih =>
      have hroot := hroots _ List.mem_cons_self
      have entered := h.root hroot hs hv
      have run := r.withoutLoops hg entered
      rw [withoutLoops_enter hg _ hroot] at run
      exact .search hv run (ih (fun r hr => hroots r (List.mem_cons_of_mem _ hr))
        (r.keeps (Coherent.move hg.toProper) entered) r.trail_eq_nil)

end Search

/-! ### Cycles -/

theorem legs_singleton (p : Path) : legs [p] = [(p, p)] := by
  rw [legs, List.rotate_singleton]
  rfl

/-- A simple round with a leg from a file to itself is that file alone. -/
theorem eq_singleton_of_loop_mem_legs {c : List Path} (hc : c.Nodup) {p : Path}
    (h : (p, p) ∈ legs c) : c = [p] := by
  obtain ⟨i, hi, e⟩ := List.getElem_of_mem h
  have hlen : i < c.length := by
    rw [legs, List.length_zip] at hi
    omega
  simp only [legs, List.getElem_zip, List.getElem_rotate, Prod.mk.injEq] at e
  -- the file after the `i`-th is the `i`-th again, so there is no other
  have next : (i + 1) % c.length = i := (hc.getElem_inj_iff).mp (e.2.trans e.1.symm)
  have one : c.length = 1 := by
    rcases Nat.lt_or_ge (i + 1) c.length with lt | ge
    · rw [Nat.mod_eq_of_lt lt] at next
      omega
    · have last : i + 1 = c.length := by omega
      rw [last, Nat.mod_self] at next
      omega
  obtain ⟨q, rfl⟩ := List.length_eq_one_iff.mp one
  rw [legs_singleton, List.mem_singleton] at h
  rw [(Prod.mk.inj h).1]

namespace Graph

/-- The files that import themselves. -/
def loops (g : Graph) : List Path := g.nodes.filter fun p => g.edges.contains (p, p)

theorem mem_loops {g : Graph} {p : Path} : p ∈ g.loops ↔ (p, p) ∈ g.edges := by
  rw [loops, List.mem_filter, List.contains_iff_mem]
  exact and_iff_right_of_imp fun h => (mem_edges.mp h).1

namespace Linked

variable {g : Graph} (h : g.Linked)
include h

/-- Without loops, the cycles of several files are found. -/
theorem cycles_withoutLoops :
    g.withoutLoops.cycles = g.cycles.filter fun c => c.length != 1 := by
  obtain ⟨t, w, -, -, e⟩ := h.toProper.exists_sweep (List.Perm.refl g.nodes)
  obtain ⟨t', w', -, -, e'⟩ := h.withoutLoops.toProper.exists_sweep (List.Perm.refl g.nodes)
  -- the sweep of `g`, seen without loops, is the one that the graph without loops makes
  have seen := w.withoutLoops h (fun _ hr => hr) (Search.Coherent.start g) rfl
  obtain rfl : t.withoutLoops = t' := seen.unique w'
  rw [cycles, cycles, e]
  refine e'.trans ?_
  exact mergeSort_filter (cmp_ne_gt_trans comparePathLists) (cmp_ne_gt_total comparePathLists) _ _

/-- A loop is a cycle of a single file, and every such cycle is one. -/
theorem singleton_mem_cycles {p : Path} : [p] ∈ g.cycles ↔ p ∈ g.loops := by
  have sound := h.toProper.soundReport_cyclesInOrder (List.Perm.refl g.nodes)
  rw [mem_loops]
  constructor
  · intro hc
    exact (sound.isCycle _ hc).1.2 (p, p) (by rw [legs_singleton]; exact List.mem_cons_self)
  · intro hp
    have walk : g.IsClosedWalk [p] :=
      ⟨List.cons_ne_nil _ _, by rw [legs_singleton]; exact List.forall_mem_singleton.mpr hp⟩
    obtain ⟨e, he, c, hc, hec⟩ :=
      h.toProper.closedWalk_meets_cyclesInOrder (List.Perm.refl g.nodes) walk
    rw [legs_singleton] at he
    rw [List.mem_singleton.mp he] at hec
    exact eq_singleton_of_loop_mem_legs (sound.isCycle c hc).2 hec ▸ hc

/-- The cycles of a single file are the loops, in their order. -/
theorem filter_cycles_eq_loops :
    (g.cycles.filter fun c => c.length == 1) = g.loops.map ([·]) := by
  have sound := h.toProper.soundReport_cyclesInOrder (List.Perm.refl g.nodes)
  refine eq_of_pairwise_lt (sound.ascending.filter _) (List.pairwise_map.mpr ?_) fun c => ?_
  · refine (h.ascending.filter _).imp fun hlt => ?_
    rw [comparePathLists, hlt]
    rfl
  · rw [List.mem_filter, List.mem_map, beq_iff_eq, List.length_eq_one_iff]
    constructor
    · rintro ⟨hc, p, rfl⟩
      exact ⟨p, h.singleton_mem_cycles.mp hc, rfl⟩
    · rintro ⟨p, hp, rfl⟩
      exact ⟨h.singleton_mem_cycles.mpr hp, p, rfl⟩

/-- **The cycles are those without loops and one for each loop.** -/
theorem cycles_eq :
    g.cycles = (g.withoutLoops.cycles ++ g.loops.map ([·])).mergeSort
      fun c d => comparePathLists c d != .gt := by
  have sound := h.toProper.soundReport_cyclesInOrder (List.Perm.refl g.nodes)
  refine (mergeSort_eq_of_perm ?_ sound.ascending).symm
  have one (c : List Path) : (c.length == 1) = !(c.length != 1) := by rw [bne, Bool.not_not]
  rw [h.cycles_withoutLoops, ← h.filter_cycles_eq_loops]
  simp only [one]
  exact List.filter_append_perm _ _

end Linked

/-- The graph `g`, with loops reported, and the graph `h`, with loops suppressed, differ in nothing
but loops. -/
structure LoopsApart (g h : Graph) : Prop where
  nodes : h.nodes = g.nodes
  unresolved : h.unresolved = g.unresolved
  externalFanOut : ∀ p, h.externalFanOut p = g.externalFanOut p
  edges : h.edges = g.edges.filter fun e => e.1 != e.2
  /-- Every file has the same links in the same order, but for loops. -/
  linksOf : ∀ p, h.linksOf p = (g.linksOf p).filter fun l => l.source != l.target
  /-- There is one cycle of a single file more for each loop. -/
  cycles : g.cycles = (h.cycles ++ (g.nodes.filter fun p => g.edges.contains (p, p)).map
    ([·])).mergeSort fun c d => comparePathLists c d != .gt
  deepChains : ∀ depth, h.deepChains depth = g.deepChains depth

/-- **Self-loops.**  Whether loops are reported or suppressed makes a difference to loops only. -/
theorem ofOutlines_loopsApart (outlines : List Outline) :
    (ofOutlines outlines .report).LoopsApart (ofOutlines outlines .suppress) := by
  have h := ofOutlines_linked outlines .report
  rw [ofOutlines_suppress]
  exact {
    nodes := rfl
    unresolved := rfl
    externalFanOut := fun _ => rfl
    edges := h.edges_withoutLoops
    linksOf := linksOf_withoutLoops _
    cycles := h.cycles_eq
    deepChains := h.deepChains_withoutLoops }

end Graph

end ArchReview

import ArchReview.Proofs.Graph.Search

/-!
# Every reported cycle is a cycle

**Soundness** (`soundReport_cycles`).  For the graph of any outlines and any first root, the search
ends, and what it reports are simple directed cycles of the graph, each told from its smallest file
on, in ascending order, no two through the same files.

A coherent search has only recorded rounds of its trail (`Search.Coherent`); turning a round to its
smallest file and sorting the rounds change neither what they are nor which there are.
-/

namespace ArchReview

theorem eq_of_comparePathLists_eq : ∀ {c d : List Path},
    (∀ p ∈ c, ∀ q ∈ d, p.same q = true → p = q) → comparePathLists c d = .eq → c = d
  | [], [], _, _ => rfl
  | [], _ :: _, _, h | _ :: _, [], _, h => by cases h
  | p :: ps, q :: qs, hs, h => by
      obtain ⟨hpq, hrest⟩ := Ordering.then_eq_eq.mp h
      have hp : p = q :=
        hs p List.mem_cons_self q List.mem_cons_self (Path.compare_eq_iff.mp hpq)
      have hps : ps = qs := eq_of_comparePathLists_eq
        (fun p hp q hq => hs p (List.mem_cons_of_mem _ hp) q (List.mem_cons_of_mem _ hq)) hrest
      rw [hp, hps]

namespace Graph

/-! ### Orders of roots -/

/-- The order of the roots when one is visited first. -/
def rootsFrom (g : Graph) (root : Path) : List Path :=
  match g.nodes.find? fun n => n.same root with
  | none   => g.nodes
  | some r => r :: g.nodes.filter (· != r)

theorem cyclesFrom_eq (g : Graph) (root : Path) :
    g.cyclesFrom root = g.cyclesInOrder (g.rootsFrom root) := by
  unfold cyclesFrom rootsFrom
  cases g.nodes.find? fun n => n.same root <;> rfl

/-- Whichever root comes first, all nodes are roots. -/
theorem Proper.rootsFrom_perm {g : Graph} (hg : g.Proper) (root : Path) :
    (g.rootsFrom root).Perm g.nodes := by
  unfold rootsFrom
  split
  · exact List.Perm.refl _
  · rename_i r hr
    rw [← hg.ascending.nodup.erase_eq_filter r]
    exact (List.perm_cons_erase (List.mem_of_find?_eq_some hr)).symm

/-- The search below some roots ends in a coherent search without a trail. -/
theorem Proper.exists_sweep {g : Graph} (hg : g.Proper) {roots : List Path}
    (hr : roots.Perm g.nodes) :
    ∃ t, Search.Sweep g roots Search.start t ∧ Search.Coherent g t ∧ t.trail = [] ∧
      g.cyclesInOrder roots = t.cycles.mergeSort fun c d => comparePathLists c d != .gt := by
  have hroots : ∀ r ∈ roots, r ∈ g.nodes := fun r h => hr.mem_iff.mp h
  have w := Search.sweep_foldl_searchFrom hg roots hroots (Search.Coherent.start g) rfl
  have ⟨h, ht⟩ := w.keeps (Search.Coherent.move hg)
    (fun hr hs hv h => h.root (hroots _ hr) hs hv) rfl (Search.Coherent.start g)
  exact ⟨_, w, h, ht, rfl⟩

/-! ### Soundness -/

/-- What a list of cycles, found by a search below some roots, is worth. -/
structure SoundReport (g : Graph) (roots : List Path) (found : List (List Path)) : Prop where
  /-- The search ends, and these are the cycles it has met. -/
  ends : ∃ t, Search.Sweep g roots Search.start t ∧ found.Perm t.cycles
  isCycle : ∀ c ∈ found, g.IsCycle c
  smallest_first : ∀ c ∈ found, ∀ p ∈ c.head?, ∀ q ∈ c, p.le q = true
  ascending : found.Pairwise fun c d => comparePathLists c d = .lt
  apart : found.Pairwise fun c d => ¬ ∀ p, p ∈ c ↔ p ∈ d

end Graph

namespace Search

/-- A cycle that was met is a cycle of the graph. -/
theorem Met.isCycle {g : Graph} {visited c : List Path} (h : Met g visited c)
    (hn : visited.Nodup) (hv : ∀ p ∈ visited, p ∈ g.nodes) : g.IsCycle c := by
  obtain ⟨round, hne, hs, he, rfl⟩ := h
  have hmem : ∀ p ∈ round, p ∈ g.nodes := fun p hp => hv p (List.mem_reverse.mp (hs.subset hp))
  have hc : g.IsCycle round :=
    ⟨⟨hne, fun e hl => Graph.mem_edges.mpr ⟨hmem _ (mem_of_mem_legs hl).1, he e hl⟩⟩,
      (List.nodup_reverse.mpr hn).sublist hs⟩
  exact hc.of_isRotated (rotateToSmallest_isRotated round)

theorem Met.smallest_first {g : Graph} {visited c : List Path} (h : Met g visited c) :
    ∀ p ∈ c.head?, ∀ q ∈ c, p.le q = true := by
  obtain ⟨round, hne, -, -, rfl⟩ := h
  obtain ⟨m, rest, e, hle⟩ := exists_rotateToSmallest_eq_cons hne
  intro p hp q hq
  rw [e] at hp
  rw [← Option.some.inj hp]
  exact hle q ((rotateToSmallest_isRotated round).mem_iff.mp hq)

end Search

namespace Graph

theorem Proper.soundReport_cyclesInOrder {g : Graph} (hg : g.Proper) {roots : List Path}
    (hr : roots.Perm g.nodes) : g.SoundReport roots (g.cyclesInOrder roots) := by
  obtain ⟨t, w, h, -, e⟩ := hg.exists_sweep hr
  have hperm : (g.cyclesInOrder roots).Perm t.cycles := by
    rw [e]
    exact List.mergeSort_perm _ _
  have hmet : ∀ c ∈ g.cyclesInOrder roots, Search.Met g t.visited c :=
    fun c hc => h.met c (hperm.mem_iff.mp hc)
  have hcycle : ∀ c ∈ g.cyclesInOrder roots, g.IsCycle c :=
    fun c hc => (hmet c hc).isCycle h.nodup h.visited_mem
  have hapart : (g.cyclesInOrder roots).Pairwise fun c d => ¬ ∀ p, p ∈ c ↔ p ∈ d :=
    h.apart.perm hperm.symm fun hcd hdc => hcd fun p => (hdc p).symm
  refine ⟨⟨t, w, hperm⟩, hcycle, fun c hc => (hmet c hc).smallest_first, ?_, hapart⟩
  have hsorted : (g.cyclesInOrder roots).Pairwise fun c d =>
      (comparePathLists c d != .gt) = true := by
    rw [e]
    exact pairwise_mergeSort_cmp comparePathLists _
  refine (hsorted.and hapart).imp_of_mem fun {c d} hc hd ⟨hle, hne⟩ => ?_
  cases hcd : comparePathLists c d with
  | lt => rfl
  | gt => rw [hcd] at hle; cases hle
  | eq =>
      have hs : ∀ p ∈ c, ∀ q ∈ d, p.same q = true → p = q := fun p hp q hq =>
        hg.ascending.eq_of_same ((hcycle c hc).1.mem_nodes hp) ((hcycle d hd).1.mem_nodes hq)
      exact absurd (fun p => by rw [eq_of_comparePathLists_eq hs hcd]) hne

/-- **Soundness.**  Whatever the files, the policy and the first root, the search ends and reports
simple cycles of the graph, each from its smallest file on, in ascending order, no two through the
same files. -/
theorem soundReport_cycles (outlines : List Outline) (policy : SelfLoops) :
    let g := ofOutlines outlines policy
    g.SoundReport g.nodes g.cycles ∧
      ∀ root, g.SoundReport (g.rootsFrom root) (g.cyclesFrom root) := by
  intro g
  have hg : g.Proper := ofOutlines_proper outlines policy
  refine ⟨hg.soundReport_cyclesInOrder (List.Perm.refl _), fun root => ?_⟩
  rw [cyclesFrom_eq]
  exact hg.soundReport_cyclesInOrder (hg.rootsFrom_perm root)

end Graph

end ArchReview

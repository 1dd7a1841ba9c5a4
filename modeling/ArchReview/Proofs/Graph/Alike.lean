import ArchReview.Graph.Chains
import ArchReview.Proofs.Graph.Edges
import ArchReview.Proofs.Path.Normal
import ArchReview.Proofs.Sorting
import ArchReview.Proofs.Text.NameSet

/-!
# Graphs of the same files

The links of a graph stand in the order in which its files were given.  Two graphs are *alike* when
nothing but this order tells them apart (`Alike`): they have the same nodes, and every file has the
same links in the same order.  All that is read off a graph is then the same: neighbours, couplings,
edges, cycles and chains.

**Order of files** (`ofOutlines_alike`).  If no two outlines have the same normal path, the graphs
of these outlines in any two orders are alike.
-/

namespace ArchReview.Graph

/-- The same graph, up to the order of its files. -/
structure Alike (g h : Graph) : Prop where
  nodes_eq : g.nodes = h.nodes
  linksOf_eq : g.linksOf = h.linksOf
  links_perm : g.links.Perm h.links
  unresolved_perm : g.unresolved.Perm h.unresolved
  sources : Spelled (g.links.map Link.source)

namespace Alike

variable {g h : Graph} (a : g.Alike h)
include a

/-! ### Neighbours and couplings -/

theorem successors_eq : g.successors = h.successors := by
  funext p
  rw [successors, successors, a.linksOf_eq]

theorem dependents_eq : g.dependents = h.dependents := by
  funext p
  refine pathSet_eq_of_perm ((a.links_perm.filter _).map _) fun q hq r hr => a.sources q ?_ r ?_
  · exact (List.filter_sublist.map Link.source).subset hq
  · exact (List.filter_sublist.map Link.source).subset hr

theorem externalFanOut_eq : g.externalFanOut = h.externalFanOut := by
  funext p
  have hperm := (a.unresolved_perm.filter fun u => u.source.same p).map UnresolvedImport.modulePath
  rw [externalFanOut, externalFanOut, Text.nameSet_congr fun _ => hperm.mem_iff]

theorem couplings_eq : g.couplings = h.couplings := by
  have hin : g.fanIn = h.fanIn := by
    funext p
    rw [fanIn, fanIn, a.dependents_eq]
  have hout : g.fanOut = h.fanOut := by
    funext p
    rw [fanOut, fanOut, a.successors_eq]
  have hinst : g.instability = h.instability := by
    funext p
    rw [instability, instability, hin, hout, a.externalFanOut_eq]
  have hcoupling : g.coupling = h.coupling := by
    funext p
    rw [coupling, coupling, hin, hout, hinst, a.externalFanOut_eq]
  rw [couplings, couplings, a.nodes_eq, hcoupling]

theorem edgeCount_eq : g.edgeCount = h.edgeCount := by
  rw [edgeCount, edgeCount, edges, edges, a.nodes_eq, a.successors_eq]

/-! ### Cycles -/

theorem step_eq (s : Search) : s.step g = s.step h := by
  have enter : ∀ (s : Search) (p : Path), s.enter g p = s.enter h p := fun s p => by
    rw [Search.enter, Search.enter, a.successors_eq]
  simp only [Search.step, enter]

theorem steps_eq : ∀ (n : Nat) (s : Search), Search.steps g n s = Search.steps h n s
  | 0, _ => rfl
  | n + 1, s => by rw [Search.steps, Search.steps, a.step_eq, steps_eq n]

theorem cycles_eq : g.cycles = h.cycles := by
  have hsearch : Search.searchFrom g = Search.searchFrom h := by
    funext s p
    rw [Search.searchFrom, Search.searchFrom, a.steps_eq, Search.enter, Search.enter,
      a.successors_eq, a.nodes_eq, a.links_perm.length_eq]
  rw [cycles, cycles, cyclesInOrder, cyclesInOrder, hsearch, a.nodes_eq]

/-! ### Chains -/

theorem longestFrom_eq : ∀ (fuel : Nat) (following : List Path) (node : Path) (table : ChainTable),
    g.longestFrom fuel following node table = h.longestFrom fuel following node table
  | 0, _, _, _ => rfl
  | fuel + 1, following, node, table => by
      simp only [longestFrom, a.successors_eq, longestFrom_eq fuel]

theorem deepChains_eq (depth : Nat) : g.deepChains depth = h.deepChains depth := by
  have hlongest : g.longestChains = h.longestChains := by
    simp only [longestChains, a.longestFrom_eq, a.nodes_eq]
  rw [deepChains, deepChains, hlongest]

end Alike

/-! ### The order of the files -/

/-- The links that the imports of a file leave. -/
theorem links_ofOutlines (outlines : List Outline) (policy : SelfLoops) :
    (ofOutlines outlines policy).links =
      (outlines.filter Outline.succeeded).flatMap fun o => o.imports.flatMap fun i =>
        (i.trace (Resolver.ofFiles (ofOutlines outlines policy).nodes) policy o.path.normalize
          o.language).1 := by
  simp only [ofOutlines, List.flatMap_assoc, List.flatMap_map]

/-- Files given in ascending order are the nodes as they stand. -/
theorem nodes_of_ascending {outlines : List Outline}
    (h : Ascending (outlines.map fun o => o.path.normalize)) (policy : SelfLoops) :
    (ofOutlines outlines policy).nodes = outlines.map fun o => o.path.normalize :=
  pathSet_of_ascending h

theorem unresolved_ofOutlines (outlines : List Outline) (policy : SelfLoops) :
    (ofOutlines outlines policy).unresolved =
      (outlines.filter Outline.succeeded).flatMap fun o => o.imports.flatMap fun i =>
        (i.trace (Resolver.ofFiles (ofOutlines outlines policy).nodes) policy o.path.normalize
          o.language).2 := by
  simp only [ofOutlines, List.flatMap_assoc, List.flatMap_map]

/-- The links of a file start at its normal path. -/
theorem same_of_filter_ne_nil {r : Resolver} {policy : SelfLoops} {o : Outline} {p : Path}
    (h : (o.imports.flatMap fun i => (i.trace r policy o.path.normalize o.language).1).filter
      (fun l => l.source.same p) ≠ []) : o.path.normalize.same p = true := by
  obtain ⟨l, hl⟩ := List.exists_mem_of_ne_nil _ h
  obtain ⟨hl, hs⟩ := List.mem_filter.mp hl
  obtain ⟨i, -, hl⟩ := List.mem_flatMap.mp hl
  rwa [(Import.mem_trace hl).1] at hs

/-- Normal paths have one spelling each. -/
theorem spelled_of_normal {paths : List Path} (h : ∀ p ∈ paths, ∃ q : Path, p = q.normalize) :
    Spelled paths := by
  intro p hp q hq hs
  obtain ⟨p, rfl⟩ := h p hp
  obtain ⟨q, rfl⟩ := h q hq
  exact Path.normalize_eq_of_same hs

/-- **Order of files.**  The graphs of distinct files in any two orders are alike. -/
theorem ofOutlines_alike {outlines others : List Outline} (h : outlines.Perm others)
    (hd : (outlines.map fun o => o.path.normalize).Nodup) (policy : SelfLoops) :
    (ofOutlines outlines policy).Alike (ofOutlines others policy) := by
  have hnodes : (ofOutlines outlines policy).nodes = (ofOutlines others policy).nodes := by
    refine pathSet_eq_of_perm (h.map _) (spelled_of_normal fun p hp => ?_)
    obtain ⟨o, -, rfl⟩ := List.mem_map.mp hp
    exact ⟨o.path, rfl⟩
  have hsucceeded := h.filter Outline.succeeded
  refine ⟨hnodes, ?_, ?_, ?_, spelled_of_normal fun p hp => ?_⟩
  · funext p
    rw [linksOf, linksOf, links_ofOutlines, links_ofOutlines, hnodes, List.filter_flatMap,
      List.filter_flatMap]
    refine flatMap_eq_of_perm hsucceeded ?_
    refine ((List.pairwise_map.mp hd).sublist List.filter_sublist).imp fun {o o'} hne => ?_
    -- of two files with different normal paths, at most one has links that start at `p`
    by_contra hboth
    obtain ⟨ho, ho'⟩ := not_or.mp hboth
    refine hne (Path.normalize_eq_of_same (Path.same_iff.mpr ?_))
    exact (Path.same_iff.mp (same_of_filter_ne_nil ho)).trans
      (Path.same_iff.mp (same_of_filter_ne_nil ho')).symm
  · rw [links_ofOutlines, links_ofOutlines, hnodes]
    exact hsucceeded.flatMap_right _
  · rw [unresolved_ofOutlines, unresolved_ofOutlines, hnodes]
    exact hsucceeded.flatMap_right _
  · obtain ⟨l, hl, rfl⟩ := List.mem_map.mp hp
    obtain ⟨o, -, -, i, -, hl⟩ := mem_links_ofOutlines.mp hl
    exact ⟨o.path, (Import.mem_trace hl).1⟩

end ArchReview.Graph

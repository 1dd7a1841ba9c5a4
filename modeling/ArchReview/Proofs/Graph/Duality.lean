import ArchReview.Proofs.Graph.Accounting
import Mathlib.Combinatorics.Enumerative.DoubleCounting

/-!
# Fan-in and fan-out

Seen from a graph whose links start and end at nodes, the successors of a file are the nodes that it
has a link to (`Linked.successors_eq`), and the dependents of a file are the nodes that have a link
to it (`Linked.dependents_eq`).  Both count pairs of nodes with a link between them, by rows and by
columns, so they add up to the same number.

**Duality** (`ofOutlines_balanced`).  In the graph of some outlines the edges are the pairs of files
with a link between them, however many links these are; fan-out counts distinct targets and fan-in
distinct sources, and each adds up to the number of edges.
-/

namespace ArchReview

namespace Graph

/-- The nodes are in order, and links start and end at nodes. -/
structure Linked (g : Graph) : Prop extends Proper g where
  source_mem : ∀ l ∈ g.links, l.source ∈ g.nodes

theorem ofOutlines_linked (outlines : List Outline) (policy : SelfLoops) :
    (ofOutlines outlines policy).Linked where
  toProper := ofOutlines_proper outlines policy
  source_mem l hl := by
    obtain ⟨⟨o, i⟩, hs, hsource, -⟩ := (ledger_ofOutlines outlines policy).exists_site hl
    exact (mem_nodes_ofOutlines outlines policy).mpr
      ⟨o, (mem_importSites.mp hs).1, hsource.symm⟩

/-- A file has a link to another. -/
def links? (g : Graph) (p q : Path) : Bool := (g.linksOf p).any fun l => l.target.same q

theorem links?_iff {g : Graph} {p q : Path} :
    g.links? p q = true ↔ ∃ l ∈ g.links, l.source.same p = true ∧ l.target.same q = true := by
  simp [links?, linksOf]

theorem edgeCount_eq_sum (g : Graph) : g.edgeCount = (g.nodes.map g.fanOut).sum := by
  rw [edgeCount, edges, List.length_flatMap]
  refine congrArg List.sum (List.map_congr_left fun p _ => ?_)
  rw [List.length_map, fanOut]

namespace Linked

variable {g : Graph} (h : g.Linked)
include h

/-- The successors of a file are the nodes that it has a link to. -/
theorem successors_eq (p : Path) : g.successors p = g.nodes.filter fun q => g.links? p q := by
  refine eq_of_pairwise_lt (g.ascending_successors p) (h.ascending.filter _) fun q => ?_
  rw [h.mem_successors, List.mem_filter, links?_iff]
  constructor
  · rintro ⟨l, hl, hp, rfl⟩
    exact ⟨h.target_mem l hl, l, hl, hp, Path.same_refl _⟩
  · rintro ⟨hq, l, hl, hp, hlq⟩
    exact ⟨l, hl, hp, h.ascending.eq_of_same (h.target_mem l hl) hq hlq⟩

/-- The dependents of a file are the nodes that have a link to it. -/
theorem dependents_eq (q : Path) : g.dependents q = g.nodes.filter fun p => g.links? p q := by
  have hs : Spelled ((g.links.filter fun l => l.target.same q).map Link.source) := by
    intro a ha b hb
    obtain ⟨l, hl, rfl⟩ := List.mem_map.mp ha
    obtain ⟨m, hm, rfl⟩ := List.mem_map.mp hb
    exact h.ascending.eq_of_same (h.source_mem l (List.mem_of_mem_filter hl))
      (h.source_mem m (List.mem_of_mem_filter hm))
  refine eq_of_pairwise_lt (ascending_pathSet _) (h.ascending.filter _) fun p => ?_
  rw [dependents, mem_pathSet hs, List.mem_map, List.mem_filter, links?_iff]
  constructor
  · rintro ⟨l, hl, rfl⟩
    obtain ⟨hl, hq⟩ := List.mem_filter.mp hl
    exact ⟨h.source_mem l hl, l, hl, Path.same_refl _, hq⟩
  · rintro ⟨hp, l, hl, hlp, hq⟩
    exact ⟨l, List.mem_filter.mpr ⟨hl, hq⟩, h.ascending.eq_of_same (h.source_mem l hl) hp hlp⟩

/-- Fan-out counts the distinct targets of a file's links. -/
theorem fanOut_eq_card (p : Path) :
    g.fanOut p = ((g.linksOf p).map Link.target).toFinset.card := by
  have hmem : (g.successors p).toFinset = ((g.linksOf p).map Link.target).toFinset := by
    ext q
    rw [List.mem_toFinset, List.mem_toFinset, h.mem_successors]
    simp [linksOf, and_assoc]
  rw [fanOut, ← hmem, List.toFinset_card_of_nodup (g.ascending_successors p).nodup]

/-- There is an edge between two files exactly if there is a link. -/
theorem exists_edge_iff {p q : Path} :
    (∃ e ∈ g.edges, e.1.same p = true ∧ e.2.same q = true) ↔
      ∃ l ∈ g.linksOf p, l.target.same q = true := by
  constructor
  · rintro ⟨⟨a, b⟩, he, hap, hbq⟩
    obtain ⟨l, hl, hla, rfl⟩ := h.mem_successors.mp (mem_edges.mp he).2
    rw [Path.same_iff] at hla hap
    exact ⟨l, List.mem_filter.mpr ⟨hl, Path.same_iff.mpr (hla.trans hap)⟩, hbq⟩
  · rintro ⟨l, hl, hlq⟩
    obtain ⟨hl, hlp⟩ := List.mem_filter.mp hl
    refine ⟨(l.source, l.target), mem_edges.mpr ⟨h.source_mem l hl, ?_⟩, hlp, hlq⟩
    exact h.mem_successors.mpr ⟨l, hl, Path.same_refl _, rfl⟩

theorem nodup_edges : g.edges.Nodup := by
  refine List.nodup_flatMap.mpr ⟨fun p _ => ?_, h.ascending.imp fun hlt => ?_⟩
  · exact (g.ascending_successors p).nodup.map fun _ _ => by simp
  · simp only [Function.onFun, List.disjoint_left, List.mem_map]
    rintro _ ⟨a, -, rfl⟩ ⟨b, -, e⟩
    exact Path.ne_of_lt hlt (Prod.mk.inj e).1.symm

/-- **Fan-in and fan-out add up to the same.** -/
theorem sum_fanIn_eq : (g.nodes.map g.fanIn).sum = (g.nodes.map g.fanOut).sum := by
  -- the pairs of nodes with a link between them, counted by columns and by rows
  have hd := h.ascending.nodup
  have hin (q : Path) : g.fanIn q =
      (g.nodes.toFinset.bipartiteBelow (fun p q => g.links? p q = true) q).card := by
    rw [fanIn, h.dependents_eq, Finset.bipartiteBelow, ← List.toFinset_filter,
      List.toFinset_card_of_nodup (hd.filter _)]
  have hout (p : Path) : g.fanOut p =
      (g.nodes.toFinset.bipartiteAbove (fun p q => g.links? p q = true) p).card := by
    rw [fanOut, h.successors_eq, Finset.bipartiteAbove, ← List.toFinset_filter,
      List.toFinset_card_of_nodup (hd.filter _)]
  rw [← List.sum_toFinset _ hd, ← List.sum_toFinset _ hd, Finset.sum_congr rfl fun q _ => hin q,
    Finset.sum_congr rfl fun p _ => hout p,
    Finset.sum_card_bipartiteAbove_eq_sum_card_bipartiteBelow]

end Linked

/-- Edges, fan-in and fan-out tell of the same links. -/
structure Balanced (g : Graph) : Prop where
  /-- An edge is one or more links. -/
  edge_iff : ∀ p q : Path, (∃ e ∈ g.edges, e.1.same p = true ∧ e.2.same q = true) ↔
    ∃ l ∈ g.linksOf p, l.target.same q = true
  /-- No edge is counted twice. -/
  nodup_edges : g.edges.Nodup
  /-- Fan-out is the number of distinct targets of links. -/
  fanOut_eq : ∀ p, g.fanOut p = ((g.linksOf p).map Link.target).toFinset.card
  /-- Fan-in is the number of files with a link to the given one. -/
  fanIn_eq : ∀ q, g.fanIn q =
    (g.nodes.filter fun p => (g.linksOf p).any fun l => l.target.same q).length
  /-- It is also the number of dependents. -/
  length_dependents : ∀ q, (g.dependents q).length = g.fanIn q
  /-- No two dependents are the same path. -/
  distinct_dependents : ∀ q, (g.dependents q).Pairwise fun a b => ¬ a.same b = true
  sum_fanOut : (g.nodes.map g.fanOut).sum = g.edgeCount
  sum_fanIn : (g.nodes.map g.fanIn).sum = g.edgeCount

/-- **Duality.**  In the graph of some outlines, edges are the pairs of files with a link between
them, and fan-in and fan-out count them from either end. -/
theorem ofOutlines_balanced (outlines : List Outline) (policy : SelfLoops) :
    (ofOutlines outlines policy).Balanced := by
  have h := ofOutlines_linked outlines policy
  exact {
    edge_iff := fun _ _ => h.exists_edge_iff
    nodup_edges := h.nodup_edges
    fanOut_eq := h.fanOut_eq_card
    fanIn_eq := fun q => congrArg List.length (h.dependents_eq q)
    length_dependents := fun _ => rfl
    distinct_dependents := fun q => (ascending_pathSet _).imp Path.not_same_of_lt
    sum_fanOut := (edgeCount_eq_sum _).symm
    sum_fanIn := h.sum_fanIn_eq.trans (edgeCount_eq_sum _).symm }

end Graph

end ArchReview

import ArchReview.Proofs.Graph.Duality

/-!
# Graphs without loops

Suppressing loops leaves out the links from a file to itself and nothing else: it is the same to
build a graph without them and to drop them afterwards (`ofOutlines_suppress`).  A file of the graph
without loops has the same successors but for itself (`Linked.successors_withoutLoops`).

Chains are never followed back into a file that is being followed, so they do not change
(`Linked.deepChains_withoutLoops`).
-/

namespace ArchReview

namespace Graph

/-- The same graph without the links from a file to itself. -/
def withoutLoops (g : Graph) : Graph :=
  { g with links := g.links.filter fun l => l.source != l.target }

end Graph

/-- An import under suppression leaves the links it leaves otherwise, but for loops. -/
theorem Import.trace_suppress (r : Resolver) (source : Path) (language : Language) (i : Import) :
    i.trace r .suppress source language =
      ((i.trace r .report source language).1.filter (fun l => l.source != l.target),
        (i.trace r .report source language).2) := by
  unfold Import.trace
  split
  · rfl
  · have suppressed (t : Path) : (!(SelfLoops.suppress == .suppress && t == source)) =
        (source != t) := by
      rw [beq_self_eq_true, Bool.true_and, Bool.beq_comm]
      rfl
    have reported (t : Path) : (!(SelfLoops.report == .suppress && t == source)) = true := rfl
    simp only [suppressed, reported, List.filter_true, List.filter_map]
    rfl

namespace Graph

/-- **Suppressing loops is dropping them.** -/
theorem ofOutlines_suppress (outlines : List Outline) :
    ofOutlines outlines .suppress = (ofOutlines outlines .report).withoutLoops := by
  simp only [ofOutlines, withoutLoops, Import.trace_suppress, List.flatMap_assoc, List.flatMap_map,
    List.filter_flatMap]

/-- The links of a file are those it has otherwise, in the same order. -/
theorem linksOf_withoutLoops (g : Graph) (p : Path) :
    g.withoutLoops.linksOf p = (g.linksOf p).filter fun l => l.source != l.target :=
  List.filter_comm ..

namespace Linked

variable {g : Graph} (h : g.Linked)
include h

theorem withoutLoops : g.withoutLoops.Linked where
  ascending := h.ascending
  target_mem l hl := h.target_mem l (List.mem_of_mem_filter hl)
  source_mem l hl := h.source_mem l (List.mem_of_mem_filter hl)

/-- A file has the same successors, but for itself. -/
theorem successors_withoutLoops {p : Path} (hp : p ∈ g.nodes) :
    g.withoutLoops.successors p = (g.successors p).filter (p != ·) := by
  refine eq_of_pairwise_lt (ascending_successors _ p) ((g.ascending_successors p).filter _)
    fun q => ?_
  -- a link from a spelling of `p` starts at `p`, which is spelled as a node
  have source : ∀ l ∈ g.links, l.source.same p = true → l.source = p :=
    fun l hl hs => h.ascending.eq_of_same (h.source_mem l hl) hp hs
  rw [h.withoutLoops.mem_successors, List.mem_filter, h.mem_successors]
  constructor
  · rintro ⟨l, hl, hs, rfl⟩
    obtain ⟨hl, hne⟩ := List.mem_filter.mp hl
    exact ⟨⟨l, hl, hs, rfl⟩, source l hl hs ▸ hne⟩
  · rintro ⟨⟨l, hl, hs, rfl⟩, hne⟩
    exact ⟨l, List.mem_filter.mpr ⟨hl, (source l hl hs).symm ▸ hne⟩, hs, rfl⟩

/-- The edges are the same, but for loops. -/
theorem edges_withoutLoops : g.withoutLoops.edges = g.edges.filter fun e => e.1 != e.2 := by
  rw [edges, edges, List.filter_flatMap]
  refine List.flatMap_congr fun p hp => ?_
  rw [h.successors_withoutLoops hp, List.filter_map]
  rfl

end Linked

/-! ### Chains -/

/-- Looks at one successor of the last file being followed: the best chain so far, and the table. -/
def extendBest (g : Graph) (fuel : Nat) (following : List Path)
    (found : List Path × ChainTable) (next : Path) : List Path × ChainTable :=
  if following.contains next then found
  else
    let (chain, table) := g.longestFrom fuel following next found.2
    (if chain.length > found.1.length then chain else found.1, table)

theorem longestFrom_succ (g : Graph) (fuel : Nat) (following : List Path) (node : Path)
    (table : ChainTable) :
    g.longestFrom (fuel + 1) following node table =
      match table.find? node with
      | some chain => (chain, table)
      | none       =>
        let (best, table) :=
          (g.successors node).foldl (g.extendBest fuel (node :: following)) ([], table)
        (node :: best, (node, node :: best) :: table) := rfl

theorem longestChains_eq (g : Graph) :
    g.longestChains = (g.nodes.foldl (fun found node =>
      let (chain, table) := g.longestFrom (g.nodes.length + 1) [] node found.2
      (found.1 ++ [chain], table)) (([] : List (List Path)), ([] : ChainTable))).1 := rfl

namespace Linked

variable {g : Graph} (h : g.Linked)
include h

/-- The longest chain from a file is the same: the file is being followed when its successors are
looked at, so it is passed over among them. -/
theorem longestFrom_withoutLoops (fuel : Nat) (following : List Path) {node : Path}
    (hnode : node ∈ g.nodes) (table : ChainTable) :
    g.withoutLoops.longestFrom fuel following node table =
      g.longestFrom fuel following node table := by
  induction fuel generalizing following node table with
  | zero => rfl
  | succ fuel ih =>
      have best : (g.withoutLoops.successors node).foldl
          (g.withoutLoops.extendBest fuel (node :: following)) ([], table) =
            (g.successors node).foldl (g.extendBest fuel (node :: following)) ([], table) := by
        rw [h.successors_withoutLoops hnode, List.foldl_filter]
        refine List.foldl_ext _ _ _ fun found next hnext => ?_
        by_cases hloop : node = next
        · simp [extendBest, hloop]
        · rw [if_pos (bne_iff_ne.mpr hloop), extendBest, extendBest,
            ih _ (h.mem_of_mem_successors hnext)]
      rw [longestFrom_succ, longestFrom_succ, best]

theorem deepChains_withoutLoops (depth : Nat) :
    g.withoutLoops.deepChains depth = g.deepChains depth := by
  have longest : g.withoutLoops.longestChains = g.longestChains := by
    rw [longestChains_eq, longestChains_eq]
    refine congrArg Prod.fst (List.foldl_ext _ _ _ fun found node hnode => ?_)
    rw [h.longestFrom_withoutLoops _ _ hnode]
    rfl
  rw [deepChains, deepChains, longest]

end Linked

end Graph

end ArchReview

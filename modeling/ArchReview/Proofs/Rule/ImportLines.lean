import ArchReview.Proofs.Graph.ChainSoundness
import ArchReview.Proofs.Graph.CycleSoundness
import ArchReview.Proofs.Report.Failures

/-!
# Where cycles and chains are told

Cycles and chains are found along the edges of the graph, where two imports of the same file are
one.  Their violations stand at the first file, in a line that is looked up among its links.

**Lines** (`inGraph_pointsAt`).  Every cycle and every chain that is found has its violation, and
the line of it is that of an import which leads from the first file to the next one; in a cycle of a
single file, to the file itself.

An edge has a link, and the first link between its ends has the line of an import
(`importLine?_of_mem_edges`).  The first step of a cycle or chain is an edge.
-/

namespace ArchReview

/-- A file that could be read has an import in the line that leads to `target`. -/
def ImportsAt (outlines : List Outline) (nodes : List Path) (source target : Path) (line : Nat) :
    Prop :=
  ∃ o ∈ outlines, o.succeeded = true ∧ o.path.normalize = source ∧
    ∃ i ∈ o.imports, i.line = line ∧ target ∈ (Resolver.ofFiles nodes).targets o.language i

/-- A violation of a rule stands at a file, in a line where it imports `target`. -/
structure Violation.PointsAt (outlines : List Outline) (nodes : List Path) (rule : String)
    (source target : Path) (v : Violation) : Prop where
  rule_eq : v.rule = rule
  path_eq : v.path = source
  line : ∃ line, v.line = some line ∧ ImportsAt outlines nodes source target line

/-! ### Edges -/

theorem Import.line_of_mem_trace {r : Resolver} {policy : SelfLoops} {source : Path}
    {language : Language} {i : Import} {l : Link} (h : l ∈ (i.trace r policy source language).1) :
    l.line = i.line := by
  unfold Import.trace at h
  split at h
  · cases h
  · obtain ⟨t, -, rfl⟩ := List.mem_map.mp h
    rfl

namespace Coupling

variable {outlines : List Outline} {policy : SelfLoops}

/-- The line that is looked up for an edge is that of an import. -/
theorem importLine?_of_mem_edges {p q : Path}
    (h : (p, q) ∈ (Graph.ofOutlines outlines policy).edges) :
    ∃ line, importLine? (Graph.ofOutlines outlines policy) p q = some line ∧
      ImportsAt outlines (Graph.ofOutlines outlines policy).nodes p q line := by
  have proper := Graph.ofOutlines_proper outlines policy
  obtain ⟨hp, hq⟩ := Graph.mem_edges.mp h
  obtain ⟨l, hl, hsource, rfl⟩ := proper.mem_successors.mp hq
  have found : (((Graph.ofOutlines outlines policy).linksOf p).find?
      fun k => k.target.same l.target).isSome = true :=
    List.find?_isSome.mpr ⟨l, List.mem_filter.mpr ⟨hl, hsource⟩, Path.same_refl _⟩
  obtain ⟨k, hk⟩ := Option.isSome_iff_exists.mp found
  -- the link that is found has the ends of the edge, since nodes have one spelling each
  obtain ⟨hlinks, hksource⟩ := List.mem_filter.mp (List.mem_of_find?_eq_some hk)
  have same : k.target.same l.target = true := by simpa using List.find?_some hk
  have target : k.target = l.target :=
    proper.ascending.eq_of_same (proper.target_mem k hlinks) (proper.target_mem l hl) same
  obtain ⟨o, ho, hok, i, hi, htrace⟩ := Graph.mem_links_ofOutlines.mp hlinks
  obtain ⟨source, htarget⟩ := Import.mem_trace htrace
  have start : o.path.normalize = p := by
    rw [source] at hksource
    exact proper.ascending.eq_of_same
      ((Graph.mem_nodes_ofOutlines outlines policy).mpr ⟨o, ho, rfl⟩) hp hksource
  refine ⟨k.line, by rw [importLine?, hk]; rfl, o, ho, hok, start, i, hi, ?_, ?_⟩
  · exact (Import.line_of_mem_trace htrace).symm
  · rwa [← target]

/-! ### Cycles and chains -/

/-- The first leg of a round leads to its second file, or back to its only one. -/
theorem first_mem_legs (p : Path) (rest : List Path) : (p, rest.headD p) ∈ legs (p :: rest) := by
  rw [legs_cons]
  cases rest <;> exact List.mem_cons_self

/-- The violation of a cycle points at an import of its next file. -/
theorem cycleViolation?_pointsAt {cycle : List Path}
    (h : (Graph.ofOutlines outlines policy).IsCycle cycle) :
    ∃ v, cycleViolation? (Graph.ofOutlines outlines policy) cycle = some v ∧
      ∃ first rest, cycle = first :: rest ∧ v.PointsAt outlines
        (Graph.ofOutlines outlines policy).nodes "COUP-001" first (rest.headD first) := by
  obtain ⟨first, rest, rfl⟩ := List.exists_cons_of_ne_nil h.1.1
  obtain ⟨line, hline, imports⟩ := importLine?_of_mem_edges (h.1.2 _ (first_mem_legs first rest))
  refine ⟨_, rfl, first, rest, rfl, ?_⟩
  dsimp only [List.tail_cons]
  rw [← List.headD_eq_head?_getD, hline]
  split <;> exact ⟨rfl, rfl, line, rfl, imports⟩

/-- The violation of a chain points at an import of its next file. -/
theorem chainViolation?_pointsAt {chain : List Path}
    (h : (Graph.ofOutlines outlines policy).IsWalk chain) (hlength : 0 < chain.length - 1) :
    ∃ v, chainViolation? (Graph.ofOutlines outlines policy) chain = some v ∧
      ∃ first next rest, chain = first :: next :: rest ∧ v.PointsAt outlines
        (Graph.ofOutlines outlines policy).nodes "COUP-004" first next := by
  match chain, h, hlength with
  | first :: next :: rest, h, _ =>
      obtain ⟨line, hline, imports⟩ :=
        importLine?_of_mem_edges (List.isChain_cons_cons.mp h.2).1
      exact ⟨_, rfl, first, next, rest, rfl, rfl, rfl, line, hline, imports⟩

/-- What is found for every element is found one for one. -/
theorem forall₂_filterMap {α β : Type} {R : α → β → Prop} {find : α → Option β} :
    ∀ {l : List α}, (∀ a ∈ l, ∃ b, find a = some b ∧ R a b) → List.Forall₂ R l (l.filterMap find)
  | [], _ => .nil
  | a :: l, h => by
      obtain ⟨b, hb, hR⟩ := h a List.mem_cons_self
      rw [List.filterMap_cons_some hb]
      exact .cons hR (forall₂_filterMap fun c hc => h c (List.mem_cons_of_mem _ hc))

/-- What each of the rules of the graph finds has the name of the rule. -/
theorem filter_inGraph (t : Thresholds) (g : Graph) :
    ((inGraph t g).filter fun v => v.rule == "COUP-001") = cycles g ∧
      ((inGraph t g).filter fun v => v.rule == "COUP-004") = deepChains t g := by
  have cycle := filter_rule fun v (h : v ∈ cycles g) => rule_of_mem_cycles h
  have out := filter_rule fun v (h : v ∈ highFanOut t g) => rule_of_mem_highFanOut h
  have into := filter_rule fun v (h : v ∈ highFanIn t g) => rule_of_mem_highFanIn h
  have chain := filter_rule fun v (h : v ∈ deepChains t g) => rule_of_mem_deepChains h
  constructor <;> simp [inGraph, List.filter_append, cycle, out, into, chain]

/-- **Lines.**  Every cycle has one violation and so has every chain that is told, and these are all
violations of the two rules.  Each stands at the first file, in the line of an import that leads
to the next one: in a cycle of a single file, to the file itself. -/
theorem inGraph_pointsAt (outlines : List Outline) (policy : SelfLoops) (t : Thresholds) :
    let g := Graph.ofOutlines outlines policy
    List.Forall₂ (fun cycle v => ∃ first rest, cycle = first :: rest ∧
        v.PointsAt outlines g.nodes "COUP-001" first (rest.headD first))
      g.cycles ((inGraph t g).filter fun v => v.rule == "COUP-001") ∧
    List.Forall₂ (fun chain v => ∃ first next rest, chain = first :: next :: rest ∧
        v.PointsAt outlines g.nodes "COUP-004" first next)
      (g.deepChains t.maxChainDepth) ((inGraph t g).filter fun v => v.rule == "COUP-004") := by
  intro g
  have proper : g.Proper := Graph.ofOutlines_proper outlines policy
  have cycle := (proper.soundReport_cyclesInOrder (List.Perm.refl _)).isCycle
  have chain := proper.soundChains t.maxChainDepth
  rw [(filter_inGraph t g).1, (filter_inGraph t g).2]
  refine ⟨forall₂_filterMap fun c hc => cycleViolation?_pointsAt (cycle c hc),
    forall₂_filterMap fun c hc => chainViolation?_pointsAt (chain.isSimpleWalk c hc).1 ?_⟩
  exact Nat.zero_lt_of_lt (chain.deep c hc)

end Coupling

end ArchReview

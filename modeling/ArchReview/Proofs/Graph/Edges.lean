import ArchReview.Proofs.Path.Set
import Mathlib.Algebra.Order.BigOperators.Group.List
import Mathlib.Algebra.Order.Ring.Nat

/-!
# The edges of a dependency graph

A graph is *proper* when its nodes are strictly ascending and every link leads to a node.  The
graph of some outlines is proper (`Graph.ofOutlines_proper`): its nodes are a set of paths, and a
resolver only finds files that it was given (`Resolver.mem_of_mem_targets`).

The successors of a node are strictly ascending; in a proper graph they are nodes, and there are no
more edges than links (`Graph.Proper.sum_successors_le`).
-/

namespace ArchReview

/-! ### What a resolver finds -/

namespace Resolver

theorem mem_of_file? {r : Resolver} {path f : Path} (h : r.file? path = some f) : f ∈ r.files :=
  List.mem_of_find?_eq_some h

theorem mem_of_findSome?_file? {r : Resolver} {paths : List Path} {f : Path}
    (h : paths.findSome? r.file? = some f) : f ∈ r.files := by
  obtain ⟨p, -, hp⟩ := List.exists_of_findSome?_eq_some h
  exact mem_of_file? hp

theorem mem_of_pythonFile? {r : Resolver} {base f : Path} (h : r.pythonFile? base = some f) :
    f ∈ r.files :=
  mem_of_findSome?_file? h

theorem mem_of_scriptFile? {r : Resolver} {base f : Path} (h : r.scriptFile? base = some f) :
    f ∈ r.files :=
  mem_of_findSome?_file? h

theorem mem_of_mem_modules {files : List Path} {e : String × Path}
    (h : e ∈ (ofFiles files).modules) : e.2 ∈ files := by
  obtain ⟨file, hfile, he⟩ := List.mem_flatMap.mp h
  obtain ⟨name, -, rfl⟩ := List.mem_map.mp he
  exact List.mem_of_mem_filter (List.mem_mergeSort.mp hfile)

theorem mem_of_pythonModule? {files : List Path} {dotted : String} {f : Path}
    (h : (ofFiles files).pythonModule? dotted = some f) : f ∈ files := by
  obtain ⟨e, he, rfl⟩ := Option.map_eq_some_iff.mp h
  exact mem_of_mem_modules (List.mem_of_find?_eq_some he)

/-- What `withPackage` gives was found, for a name or for the package. -/
theorem mem_withPackage {found : List (Option Path)} {package : Option Path} {f : Path}
    (h : f ∈ withPackage found package) : some f ∈ found ∨ package = some f := by
  have hm : f ∈ found.filterMap id → some f ∈ found := by
    intro hf
    obtain ⟨o, ho, e⟩ := List.mem_filterMap.mp hf
    exact (show o = some f from e) ▸ ho
  unfold withPackage at h
  dsimp only at h
  split at h
  · rcases List.mem_append.mp h with h | h
    · exact Or.inl (hm h)
    · exact Or.inr (Option.mem_toList.mp h)
  · exact Or.inl (hm h)

theorem mem_of_mem_pythonTargets {files : List Path} {i : Import} {f : Path}
    (h : f ∈ (ofFiles files).pythonTargets i) : f ∈ files := by
  unfold pythonTargets at h
  dsimp only at h
  split at h
  · split at h
    · cases h
    · rcases mem_withPackage h with h | h
      · obtain ⟨n, -, hn⟩ := List.mem_map.mp h
        exact mem_of_pythonFile? hn
      · exact mem_of_pythonFile? h
  · rcases mem_withPackage h with h | h
    · obtain ⟨n, -, hn⟩ := List.mem_map.mp h
      exact mem_of_pythonModule? hn
    · exact mem_of_pythonModule? h

theorem mem_of_scriptTarget? {r : Resolver} {i : Import} {f : Path}
    (h : r.scriptTarget? i = some f) : f ∈ r.files := by
  unfold scriptTarget? at h
  split at h
  · obtain ⟨base, -, hb⟩ := Option.bind_eq_some_iff.mp h
    exact mem_of_scriptFile? hb
  · split at h
    · rcases Option.or_eq_some_iff.mp h with h | ⟨-, h⟩
      · exact mem_of_scriptFile? h
      · exact mem_of_scriptFile? h
    · exact mem_of_scriptFile? h

/-- **A resolver finds only files that it was given.** -/
theorem mem_of_mem_targets {files : List Path} {language : Language} {i : Import} {f : Path}
    (h : f ∈ (ofFiles files).targets language i) : f ∈ files := by
  have h := mem_of_mem_pathSet h
  cases language with
  | python => exact mem_of_mem_pythonTargets h
  | javaScript | typeScript =>
      exact mem_of_scriptTarget? (Option.mem_toList.mp h)

end Resolver

/-- A link that an import leaves starts at the importing file and leads to a target of it. -/
theorem Import.mem_trace {r : Resolver} {policy : SelfLoops} {source : Path} {language : Language}
    {i : Import} {l : Link} (h : l ∈ (i.trace r policy source language).1) :
    l.source = source ∧ l.target ∈ r.targets language i := by
  unfold Import.trace at h
  split at h
  · cases h
  · obtain ⟨t, ht, rfl⟩ := List.mem_map.mp h
    exact ⟨rfl, List.mem_of_mem_filter ht⟩

/-! ### Proper graphs -/

namespace Graph

/-- The nodes are in order, and links lead to nodes. -/
structure Proper (g : Graph) : Prop where
  ascending : Ascending g.nodes
  target_mem : ∀ l ∈ g.links, l.target ∈ g.nodes

theorem mem_links_ofOutlines {outlines : List Outline} {policy : SelfLoops} {l : Link} :
    l ∈ (ofOutlines outlines policy).links ↔
      ∃ o ∈ outlines, o.succeeded = true ∧ ∃ i ∈ o.imports,
        l ∈ (i.trace (Resolver.ofFiles (ofOutlines outlines policy).nodes) policy o.path.normalize
          o.language).1 := by
  refine ⟨fun h => ?_, fun ⟨o, ho, hs, i, hi, hl⟩ => ?_⟩
  · obtain ⟨t, ht, hl⟩ := List.mem_flatMap.mp h
    obtain ⟨o, ho, ht⟩ := List.mem_flatMap.mp ht
    obtain ⟨i, hi, rfl⟩ := List.mem_map.mp ht
    obtain ⟨ho, hs⟩ := List.mem_filter.mp ho
    exact ⟨o, ho, hs, i, hi, hl⟩
  · refine List.mem_flatMap.mpr ⟨_, List.mem_flatMap.mpr ⟨o, List.mem_filter.mpr ⟨ho, hs⟩, ?_⟩, hl⟩
    exact List.mem_map_of_mem hi

/-- **The graph of some outlines is proper.** -/
theorem ofOutlines_proper (outlines : List Outline) (policy : SelfLoops) :
    (ofOutlines outlines policy).Proper where
  ascending := ascending_pathSet _
  target_mem l hl := by
    obtain ⟨o, -, -, i, -, ht⟩ := mem_links_ofOutlines.mp hl
    exact Resolver.mem_of_mem_targets (Import.mem_trace ht).2

/-! ### Successors -/

theorem ascending_successors (g : Graph) (p : Path) : Ascending (g.successors p) :=
  ascending_pathSet _

theorem mem_edges {g : Graph} {p q : Path} :
    (p, q) ∈ g.edges ↔ p ∈ g.nodes ∧ q ∈ g.successors p := by
  simp [edges]

theorem Proper.mem_of_mem_successors {g : Graph} (hg : g.Proper) {p q : Path}
    (h : q ∈ g.successors p) : q ∈ g.nodes := by
  obtain ⟨l, hl, rfl⟩ := List.mem_map.mp (mem_of_mem_pathSet h)
  exact hg.target_mem l (List.mem_of_mem_filter hl)

/-- The successors of a file are the targets of its links. -/
theorem Proper.mem_successors {g : Graph} (hg : g.Proper) {p q : Path} :
    q ∈ g.successors p ↔ ∃ l ∈ g.links, l.source.same p = true ∧ l.target = q := by
  have hs : Spelled ((g.linksOf p).map Link.target) := by
    intro a ha b hb
    obtain ⟨l, hl, rfl⟩ := List.mem_map.mp ha
    obtain ⟨m, hm, rfl⟩ := List.mem_map.mp hb
    exact hg.ascending.eq_of_same (hg.target_mem l (List.mem_of_mem_filter hl))
      (hg.target_mem m (List.mem_of_mem_filter hm))
  rw [successors, mem_pathSet hs]
  simp only [linksOf, List.mem_map, List.mem_filter, and_assoc]

theorem length_successors_le (g : Graph) (p : Path) :
    (g.successors p).length ≤ (g.linksOf p).length :=
  (length_pathSet_le _).trans (List.length_map _).le

/-- Each link is counted at one node at most: nodes are distinct paths. -/
theorem sum_linksOf_le : ∀ {nodes : List Path}, Ascending nodes → ∀ links : List Link,
    (nodes.map fun p => (links.filter fun l => l.source.same p).length).sum ≤ links.length
  | [], _, _ => Nat.zero_le _
  | p :: nodes, h, links => by
      obtain ⟨hp, hnodes⟩ := List.pairwise_cons.mp h
      have others (q : Path) (hq : q ∈ nodes) :
          ((links.filter fun l => !l.source.same p).filter fun l => l.source.same q) =
            links.filter fun l => l.source.same q := by
        rw [List.filter_filter]
        refine List.filter_congr fun l _ => ?_
        by_cases hl : l.source.same q = true
        · have hlp : ¬ l.source.same p = true := fun hlp => by
            rw [Path.same_iff] at hl hlp
            exact Path.not_same_of_lt (hp q hq) (Path.same_iff.mpr (hlp.symm.trans hl))
          simp [hl, hlp]
        · simp [hl]
      have ih := sum_linksOf_le hnodes (links.filter fun l => !l.source.same p)
      rw [List.map_congr_left fun q hq => congrArg List.length (others q hq)] at ih
      have parts := List.length_eq_length_filter_add (l := links) fun l => l.source.same p
      rw [List.map_cons, List.sum_cons]
      omega

/-- **There are no more edges than links.** -/
theorem Proper.sum_successors_le {g : Graph} (hg : g.Proper) :
    (g.nodes.map fun p => (g.successors p).length).sum ≤ g.links.length :=
  (List.sum_le_sum fun p _ => g.length_successors_le p).trans (sum_linksOf_le hg.ascending g.links)

/-! ### Three scripts -/

/-- A script that imports others of its directory. -/
def scriptImporting (name : String) (others : List String) : Outline where
  path := ⟨name⟩
  language := .typeScript
  imports := others.map fun other =>
    { modulePath := "./" ++ other
      importedNames := []
      bindings := []
      isRelative := true
      resolvedBase := some ⟨other⟩
      kind := .static
      sourceFile := ⟨name⟩
      line := 1 }

/-- The files `b` and `c` import each other, and `b` leads to `c` by way of `a` as well. -/
def threeScripts : List Outline :=
  [scriptImporting "a.ts" ["c"], scriptImporting "b.ts" ["a", "c"], scriptImporting "c.ts" ["b"]]

def threeScriptEdges : List (Path × Path) :=
  [(⟨"a.ts"⟩, ⟨"c.ts"⟩), (⟨"b.ts"⟩, ⟨"a.ts"⟩), (⟨"b.ts"⟩, ⟨"c.ts"⟩), (⟨"c.ts"⟩, ⟨"b.ts"⟩)]

theorem nodes_threeScripts :
    (ofOutlines threeScripts .suppress).nodes = [⟨"a.ts"⟩, ⟨"b.ts"⟩, ⟨"c.ts"⟩] := by
  change pathSet (threeScripts.map fun o => o.path.normalize) = _
  rw [pathSet_of_ascending (by decide +kernel)]
  decide +kernel

theorem links_threeScripts :
    (ofOutlines threeScripts .suppress).links.map (fun l => (l.source, l.target)) =
      threeScriptEdges := by
  have nodes : pathSet (threeScripts.map fun o => o.path.normalize) = _ := nodes_threeScripts
  simp only [ofOutlines, nodes]
  decide +kernel

theorem mem_successors_threeScripts {p q : Path} :
    q ∈ (ofOutlines threeScripts .suppress).successors p ↔
      ∃ e ∈ threeScriptEdges, e.1.same p = true ∧ e.2 = q := by
  rw [(ofOutlines_proper threeScripts .suppress).mem_successors, ← links_threeScripts]
  simp only [List.mem_map, exists_exists_and_eq_and]

theorem edges_threeScripts :
    (⟨"b.ts"⟩, ⟨"c.ts"⟩) ∈ (ofOutlines threeScripts .suppress).edges ∧
      (⟨"c.ts"⟩, ⟨"b.ts"⟩) ∈ (ofOutlines threeScripts .suppress).edges := by
  rw [mem_edges, mem_edges, nodes_threeScripts, mem_successors_threeScripts,
    mem_successors_threeScripts]
  decide +kernel

end Graph

end ArchReview

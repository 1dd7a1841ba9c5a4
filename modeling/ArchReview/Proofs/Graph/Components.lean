import ArchReview.Proofs.Graph.CycleCompleteness
import ArchReview.Proofs.Graph.Duality
import Mathlib.Logic.Relation

/-!
# Strongly connected components

Two files lie in the same component when each leads to the other along edges (`SameComponent`).  The
files of a closed walk do (`IsClosedWalk.sameComponent`), and an edge between two such files lies on
a closed walk (`exists_isClosedWalk`).

A graph is *unbranched* when no file has two successors in its own component, so that cycles do not
overlap.  Then a closed walk has no choice where to go on: it passes through every file of its
component (`Unbranched.mem_of_sameComponent`), and a cycle is determined by any of its files
(`Unbranched.eq_of_meet`).

**Components** (`cyclesFrom_unbranched`).  In an unbranched graph the search reports the same cycles
whichever root comes first: one for each component with a cycle, through all of its files and from
the smallest one on.
-/

namespace ArchReview

/-! ### Rounds as chains -/

theorem isChain_of_forall_mem_zip {R : Path → Path → Prop} {q : Path} :
    ∀ {p : Path} {rest : List Path}, (∀ e ∈ (p :: rest).zip (rest ++ [q]), R e.1 e.2) →
      (p :: (rest ++ [q])).IsChain R
  | p, [], h => List.isChain_pair.mpr (h (p, q) List.mem_cons_self)
  | p, r :: rest, h => by
      rw [List.cons_append, List.zip_cons_cons, List.forall_mem_cons] at h
      exact List.isChain_cons_cons.mpr ⟨h.1, isChain_of_forall_mem_zip h.2⟩

/-- A round whose legs are related is a chain when it is taken back to its start. -/
theorem isChain_of_forall_legs {R : Path → Path → Prop} {p : Path} {rest : List Path}
    (h : ∀ e ∈ legs (p :: rest), R e.1 e.2) : (p :: (rest ++ [p])).IsChain R := by
  rw [legs_cons] at h
  exact isChain_of_forall_mem_zip h

/-- Where every file has one next file at most, chains of the same length from the same file are
equal. -/
theorem eq_of_isChain {R : Path → Path → Prop} (hR : ∀ p q r, R p q → R p r → q = r) :
    ∀ {p : Path} {c d : List Path}, (p :: c).IsChain R → (p :: d).IsChain R →
      c.length = d.length → c = d
  | _, [], [], _, _, _ => rfl
  | _, [], _ :: _, _, _, h | _, _ :: _, [], _, _, h => by cases h
  | p, q :: c, r :: d, hc, hd, h => by
      obtain ⟨hpq, hc⟩ := List.isChain_cons_cons.mp hc
      obtain ⟨hpr, hd⟩ := List.isChain_cons_cons.mp hd
      obtain rfl : q = r := hR p q r hpq hpr
      rw [eq_of_isChain hR hc hd (Nat.succ.inj h)]

namespace Graph

/-! ### Reaching files along edges -/

/-- A file leads to another along edges. -/
def Reaches (g : Graph) : Path → Path → Prop :=
  Relation.ReflTransGen fun p q => (p, q) ∈ g.edges

/-- Two files lead to each other: they lie in the same strongly connected component. -/
def SameComponent (g : Graph) (p q : Path) : Prop := g.Reaches p q ∧ g.Reaches q p

theorem SameComponent.refl (g : Graph) (p : Path) : g.SameComponent p p :=
  ⟨Relation.ReflTransGen.refl, Relation.ReflTransGen.refl⟩

theorem SameComponent.symm {g : Graph} {p q : Path} (h : g.SameComponent p q) :
    g.SameComponent q p :=
  ⟨h.2, h.1⟩

theorem SameComponent.trans {g : Graph} {p q r : Path} (h : g.SameComponent p q)
    (h' : g.SameComponent q r) : g.SameComponent p r :=
  ⟨Relation.ReflTransGen.trans h.1 h'.1, Relation.ReflTransGen.trans h'.2 h.2⟩

/-- The files of a closed walk lie in one component. -/
theorem IsClosedWalk.sameComponent {g : Graph} {walk : List Path} (h : g.IsClosedWalk walk)
    {p q : Path} (hp : p ∈ walk) (hq : q ∈ walk) : g.SameComponent p q := by
  obtain ⟨r, rest, rfl⟩ := List.exists_cons_of_ne_nil h.1
  have chain : (r :: (rest ++ [r])).IsChain fun p q => (p, q) ∈ g.edges :=
    isChain_of_forall_legs h.2
  -- the walk starts and ends at `r`
  have fromStart : ∀ x ∈ r :: (rest ++ [r]), g.Reaches r x :=
    chain.induction (g.Reaches r) _ (fun _ _ he hx => Relation.ReflTransGen.tail hx he)
      fun _ => Relation.ReflTransGen.refl
  have toEnd : ∀ x ∈ r :: (rest ++ [r]), g.Reaches x r :=
    chain.backwards_induction (g.Reaches · r) _ (fun _ _ he hy => Relation.ReflTransGen.head he hy)
      fun _ => by
        rw [List.getLast_cons (List.concat_ne_nil _ _), List.getLast_concat]
        exact Relation.ReflTransGen.refl
  have both : ∀ x ∈ r :: rest, g.SameComponent r x := fun x hx =>
    have hx : x ∈ r :: (rest ++ [r]) := List.mem_append_left [r] hx
    ⟨fromStart x hx, toEnd x hx⟩
  exact (both p hp).symm.trans (both q hq)

/-- An edge that can be undone lies on a closed walk. -/
theorem exists_isClosedWalk {g : Graph} {p q : Path} (he : (p, q) ∈ g.edges) (h : g.Reaches q p) :
    ∃ walk, g.IsClosedWalk walk ∧ p ∈ walk := by
  obtain ⟨rest, hchain, hlast⟩ := List.exists_isChain_cons_of_relationReflTransGen h
  refine ⟨q :: rest, ⟨List.cons_ne_nil _ _,
    forall_legs_of_isChain (R := fun p q => (p, q) ∈ g.edges) ?_⟩, hlast ▸ List.getLast_mem _⟩
  rw [← List.cons_append]
  refine hchain.append (List.isChain_singleton q) fun x hx y hy => ?_
  rw [List.getLast?_eq_some_getLast (List.cons_ne_nil _ _), hlast] at hx
  rw [← Option.some.inj hx, ← Option.some.inj hy]
  exact he

/-- A level that no edge lowers is the same throughout a component. -/
theorem SameComponent.level_eq {g : Graph} {level : Path → Nat}
    (hl : ∀ e ∈ g.edges, level e.1 ≤ level e.2) {p q : Path} (h : g.SameComponent p q) :
    level p = level q := by
  have up : ∀ {a b : Path}, g.Reaches a b → level a ≤ level b := by
    intro a b hab
    induction hab with
    | refl => exact Nat.le_refl _
    | tail _ he ih => exact ih.trans (hl _ he)
  exact Nat.le_antisymm (up h.1) (up h.2)

/-- The edges are the pairs of files with a link between them. -/
theorem Linked.mem_edges_iff {g : Graph} (hg : g.Linked) {e : Path × Path} :
    e ∈ g.edges ↔ e ∈ g.links.map fun l => (l.source, l.target) := by
  obtain ⟨p, q⟩ := e
  rw [mem_edges, hg.mem_successors, List.mem_map]
  constructor
  · rintro ⟨hp, l, hl, hs, rfl⟩
    exact ⟨l, hl, by rw [hg.ascending.eq_of_same (hg.source_mem l hl) hp hs]⟩
  · rintro ⟨l, hl, e⟩
    obtain ⟨rfl, rfl⟩ := Prod.mk.inj e
    exact ⟨hg.source_mem l hl, l, hl, Path.same_refl _, rfl⟩

/-- The edges between files that are given in ascending order. -/
theorem mem_edges_of_ascending {outlines : List Outline} {policy : SelfLoops}
    {edges : List (Path × Path)} (h : Ascending (outlines.map fun o => o.path.normalize))
    (he : ((outlines.filter Outline.succeeded).flatMap fun o => o.imports.flatMap fun i =>
      (i.trace (Resolver.ofFiles (outlines.map fun o => o.path.normalize)) policy o.path.normalize
        o.language).1).map (fun l => (l.source, l.target)) = edges) {e : Path × Path} :
    e ∈ (ofOutlines outlines policy).edges ↔ e ∈ edges := by
  rw [(ofOutlines_linked outlines policy).mem_edges_iff, links_ofOutlines, nodes_of_ascending h, he]

/-! ### Unbranched graphs -/

/-- No file has two successors in its own component. -/
def Unbranched (g : Graph) : Prop :=
  ∀ p q r, (p, q) ∈ g.edges → (p, r) ∈ g.edges → g.SameComponent p q → g.SameComponent p r → q = r

/-- A graph is unbranched if no edge lowers the level and no two edges from a file keep it. -/
theorem unbranched_of_level {g : Graph} (level : Path → Nat)
    (hl : ∀ e ∈ g.edges, level e.1 ≤ level e.2)
    (hb : ∀ e ∈ g.edges, ∀ f ∈ g.edges, e.1 = f.1 → level e.1 = level e.2 → level f.1 = level f.2 →
      e.2 = f.2) : g.Unbranched :=
  fun p q r hq hr hpq hpr => hb (p, q) hq (p, r) hr rfl (hpq.level_eq hl) (hpr.level_eq hl)

namespace Unbranched

variable {g : Graph} (hu : g.Unbranched)
include hu

/-- A closed walk passes through all files of its component. -/
theorem mem_of_sameComponent {walk : List Path} (hw : g.IsClosedWalk walk) {p q : Path}
    (hp : p ∈ walk) (h : g.SameComponent p q) : q ∈ walk := by
  obtain ⟨hpq, hqp⟩ := h
  -- along the way from `p` to `q`, each next file is the one that the walk goes on to
  induction hpq with
  | refl => exact hp
  | @tail a b _ he ih =>
      have ha : a ∈ walk := ih (Relation.ReflTransGen.head he hqp)
      obtain ⟨c, hc⟩ := exists_leg_from ha
      have hcw := (mem_of_mem_legs hc).2
      have hab : g.SameComponent a b :=
        ⟨Relation.ReflTransGen.single he,
          Relation.ReflTransGen.trans hqp (hw.sameComponent hp ha).1⟩
      rw [hu a b c he (hw.2 _ hc) hab (hw.sameComponent ha hcw)]
      exact hcw

theorem mem_iff_sameComponent {walk : List Path} (hw : g.IsClosedWalk walk) {p q : Path}
    (hp : p ∈ walk) : q ∈ walk ↔ g.SameComponent p q :=
  ⟨fun hq => hw.sameComponent hp hq, hu.mem_of_sameComponent hw hp⟩

/-- Two cycles told from their smallest files on are equal if they meet. -/
theorem eq_of_meet (hg : g.Proper) {c d : List Path} (hc : g.IsCycle c) (hd : g.IsCycle d)
    (hcs : ∀ p ∈ c.head?, ∀ q ∈ c, p.le q = true) (hds : ∀ p ∈ d.head?, ∀ q ∈ d, p.le q = true)
    {p : Path} (hpc : p ∈ c) (hpd : p ∈ d) : c = d := by
  have hmem : ∀ q, q ∈ c ↔ q ∈ d := fun q =>
    (hu.mem_iff_sameComponent hc.1 hpc).trans (hu.mem_iff_sameComponent hd.1 hpd).symm
  have hlen : c.length = d.length := ((List.perm_ext_iff_of_nodup hc.2 hd.2).mpr hmem).length_eq
  obtain ⟨a, c, rfl⟩ := List.exists_cons_of_ne_nil hc.1.1
  obtain ⟨b, d, rfl⟩ := List.exists_cons_of_ne_nil hd.1.1
  have hab : a = b := by
    have hbc : b ∈ a :: c := (hmem b).mpr List.mem_cons_self
    have had : a ∈ b :: d := (hmem a).mp List.mem_cons_self
    have heq := cmp_eq_of_ne_gt Path.compare (hcs a rfl b hbc) (hds b rfl a had)
    exact hg.ascending.eq_of_same (hc.1.mem_nodes List.mem_cons_self) (hc.1.mem_nodes hbc)
      (Path.compare_eq_iff.mp heq)
  subst hab
  -- each cycle goes from a file to its only successor in the component
  have onward : ∀ {rest : List Path}, g.IsCycle (a :: rest) →
      (a :: rest).IsChain fun p q => (p, q) ∈ g.edges ∧ g.SameComponent p q := by
    intro rest h
    have closed := isChain_of_forall_legs (R := fun p q => (p, q) ∈ g.edges ∧ g.SameComponent p q)
      fun e he => ⟨h.1.2 e he, h.1.sameComponent (mem_of_mem_legs he).1 (mem_of_mem_legs he).2⟩
    rw [← List.cons_append] at closed
    exact closed.left_of_append
  rw [eq_of_isChain (fun p q r hq hr => hu p q r hq.1 hr.1 hq.2 hr.2) (onward hc) (onward hd)
    (Nat.succ.inj hlen)]

/-- **All cycles are reported**, whatever the order of the roots. -/
theorem mem_cyclesInOrder_iff (hg : g.Proper) {roots : List Path} (hr : roots.Perm g.nodes)
    {c : List Path} : c ∈ g.cyclesInOrder roots ↔
      g.IsCycle c ∧ ∀ p ∈ c.head?, ∀ q ∈ c, p.le q = true := by
  have sound := hg.soundReport_cyclesInOrder hr
  constructor
  · intro hc
    exact ⟨sound.isCycle c hc, sound.smallest_first c hc⟩
  · rintro ⟨hc, hs⟩
    obtain ⟨e, he, d, hd, hed⟩ := hg.closedWalk_meets_cyclesInOrder hr hc.1
    rw [hu.eq_of_meet hg hc (sound.isCycle d hd) hs (sound.smallest_first d hd)
      (mem_of_mem_legs he).1 (mem_of_mem_legs hed).1]
    exact hd

theorem cyclesFrom_eq_cycles (hg : g.Proper) (root : Path) : g.cyclesFrom root = g.cycles := by
  rw [cyclesFrom_eq]
  have hr := hg.rootsFrom_perm root
  refine eq_of_pairwise_lt (hg.soundReport_cyclesInOrder hr).ascending
    (hg.soundReport_cyclesInOrder (List.Perm.refl g.nodes)).ascending fun c => ?_
  rw [hu.mem_cyclesInOrder_iff hg hr]
  exact (hu.mem_cyclesInOrder_iff hg (List.Perm.refl g.nodes)).symm

end Unbranched

/-! ### The cycles of an unbranched graph -/

/-- The cycles found are the components with a cycle. -/
structure ListsComponents (g : Graph) (found : List (List Path)) : Prop where
  isCycle : ∀ c ∈ found, g.IsCycle c
  smallest_first : ∀ c ∈ found, ∀ p ∈ c.head?, ∀ q ∈ c, p.le q = true
  /-- A component is listed exactly if it has a closed walk in it. -/
  listed_iff : ∀ p, (∃ c ∈ found, ∀ q, q ∈ c ↔ g.SameComponent p q) ↔
    ∃ walk, g.IsClosedWalk walk ∧ ∀ q ∈ walk, g.SameComponent p q
  /-- Nothing but components is listed. -/
  component : ∀ c ∈ found, ∃ p ∈ g.nodes, ∀ q, q ∈ c ↔ g.SameComponent p q
  /-- No component is listed twice. -/
  apart : found.Pairwise List.Disjoint

theorem Unbranched.listsComponents {g : Graph} (hu : g.Unbranched) (hg : g.Proper) :
    g.ListsComponents g.cycles := by
  have sound := hg.soundReport_cyclesInOrder (List.Perm.refl g.nodes)
  refine ⟨sound.isCycle, sound.smallest_first, fun p => ⟨?_, ?_⟩, fun c hc => ?_, ?_⟩
  · rintro ⟨c, hc, hmem⟩
    exact ⟨c, (sound.isCycle c hc).1, fun q hq => (hmem q).mp hq⟩
  · rintro ⟨walk, hw, hp⟩
    obtain ⟨e, he, c, hc, hec⟩ := hg.closedWalk_meets_cyclesInOrder (List.Perm.refl g.nodes) hw
    have hpe := hp e.1 (mem_of_mem_legs he).1
    refine ⟨c, hc, fun q => ?_⟩
    rw [hu.mem_iff_sameComponent (sound.isCycle c hc).1 (mem_of_mem_legs hec).1]
    exact ⟨hpe.trans, hpe.symm.trans⟩
  · have hw := (sound.isCycle c hc).1
    obtain ⟨p, hp⟩ := List.exists_mem_of_ne_nil c hw.1
    exact ⟨p, hw.mem_nodes hp, fun q => hu.mem_iff_sameComponent hw hp⟩
  · refine sound.apart.imp_of_mem fun {c d} hc hd hne p hpc hpd => hne fun q => ?_
    rw [hu.mem_iff_sameComponent (sound.isCycle c hc).1 hpc,
      hu.mem_iff_sameComponent (sound.isCycle d hd).1 hpd]

/-- **Components.**  If no file has two successors in its own component, the cycles found do not
depend on the root that comes first: they are the components with a cycle, each once. -/
theorem cyclesFrom_unbranched (outlines : List Outline) (policy : SelfLoops) :
    let g := ofOutlines outlines policy
    g.Unbranched → (∀ root, g.cyclesFrom root = g.cycles) ∧ g.ListsComponents g.cycles := by
  intro g hu
  have hg : g.Proper := ofOutlines_proper outlines policy
  exact ⟨hu.cyclesFrom_eq_cycles hg, hu.listsComponents hg⟩

/-- The files `a` and `b` import each other, and so do `c` and `d`; `b` leads to `c` as well. -/
def pairedScripts : List Outline :=
  [scriptImporting "a.ts" ["b"], scriptImporting "b.ts" ["a", "c"], scriptImporting "c.ts" ["d"],
    scriptImporting "d.ts" ["c"]]

theorem edges_pairedScripts {e : Path × Path} :
    e ∈ (ofOutlines pairedScripts .suppress).edges ↔
      e ∈ ([(⟨"a.ts"⟩, ⟨"b.ts"⟩), (⟨"b.ts"⟩, ⟨"a.ts"⟩), (⟨"b.ts"⟩, ⟨"c.ts"⟩), (⟨"c.ts"⟩, ⟨"d.ts"⟩),
        (⟨"d.ts"⟩, ⟨"c.ts"⟩)] : List (Path × Path)) :=
  mem_edges_of_ascending (by decide +kernel) (by decide +kernel)

theorem cyclesFrom_unbranched_pairedScripts :
    (ofOutlines pairedScripts .suppress).Unbranched ∧
      (∀ root, (ofOutlines pairedScripts .suppress).cyclesFrom root =
        (ofOutlines pairedScripts .suppress).cycles) ∧
      (ofOutlines pairedScripts .suppress).ListsComponents
        (ofOutlines pairedScripts .suppress).cycles := by
  -- `c` and `d` stand one level above `a` and `b`
  have hu : (ofOutlines pairedScripts .suppress).Unbranched := by
    refine unbranched_of_level (fun p => if p ∈ [⟨"a.ts"⟩, ⟨"b.ts"⟩] then 0 else 1) ?_ ?_
    · simp only [edges_pairedScripts]
      decide +kernel
    · simp only [edges_pairedScripts]
      decide +kernel
  exact ⟨hu, cyclesFrom_unbranched pairedScripts .suppress hu⟩

end Graph

end ArchReview

import ArchReview.Proofs.Graph.ChainSoundness
import ArchReview.Proofs.Graph.Components
import ArchReview.Proofs.Graph.SelfLoops

/-!
# Longest chains

In a graph without cycles other than loops, following a file never meets a file that is being
followed, but for the file itself.  So nothing but loops is passed over: every other file that a
file imports is looked at, and its chain is one longer than the longest of theirs, also where that
was worked out below another file (`Scan.longest`).

**Longest chains** (`deepChains_onlyLoops`).  The chains told above a depth are longest among all
walks from their first files, where a walk never goes from a file to itself.  Some chain is told
exactly if some walk is that deep; the first one is a longest walk of the graph; and unless ten
chains are told, every file from which so deep a walk starts lies on one of them.
-/

namespace ArchReview.Graph

/-! ### Graphs with loops only -/

/-- There are no cycles but loops. -/
def OnlyLoops (g : Graph) : Prop := ∀ c, g.IsCycle c → c.length = 1

/-- A file imports another one. -/
def Onto (g : Graph) (p q : Path) : Prop := (p, q) ∈ g.edges ∧ p ≠ q

/-- A directed path that never goes from a file to itself. -/
def IsStrictWalk (g : Graph) (walk : List Path) : Prop := walk ≠ [] ∧ walk.IsChain g.Onto

/-- A simple path is strict. -/
theorem IsSimpleWalk.strict {g : Graph} {walk : List Path} (h : g.IsSimpleWalk walk) :
    g.IsStrictWalk walk := by
  obtain ⟨⟨hne, hchain⟩, hnodup⟩ := h
  refine ⟨hne, ?_⟩
  clear hne
  induction hchain with
  | nil => exact .nil
  | singleton p => exact .singleton p
  | cons_cons hpq _ ih =>
      obtain ⟨hp, hnodup⟩ := List.nodup_cons.mp hnodup
      exact .cons_cons ⟨hpq, fun e => hp (e ▸ List.mem_cons_self)⟩ (ih hnodup)

theorem Linked.onto_iff {g : Graph} (hg : g.Linked) {p q : Path} :
    g.Onto p q ↔ (p, q) ∈ g.withoutLoops.edges := by
  rw [hg.edges_withoutLoops, List.mem_filter, bne_iff_ne]
  rfl

/-- In a graph with loops only, no file leads back to itself by way of another. -/
theorem Linked.not_transGen_onto {g : Graph} (hg : g.Linked) (ha : g.OnlyLoops) (p : Path) :
    ¬ Relation.TransGen g.Onto p p := by
  intro h
  have h : Relation.TransGen (fun p q => (p, q) ∈ g.withoutLoops.edges) p p :=
    Relation.TransGen.mono (fun _ _ => hg.onto_iff.mp) _ _ h
  obtain ⟨q, he, hq⟩ := Relation.TransGen.head'_iff.mp h
  -- the way back would be a closed walk of the graph without loops, which meets a cycle of it
  obtain ⟨walk, hw, -⟩ := exists_isClosedWalk he hq
  have hg' := hg.withoutLoops.toProper
  obtain ⟨-, -, c, hc, -⟩ := hg'.closedWalk_meets_cyclesInOrder (List.Perm.refl _) hw
  have hcycle := (hg'.soundReport_cyclesInOrder (List.Perm.refl _)).isCycle c hc
  have hedge : ∀ e ∈ g.withoutLoops.edges, e ∈ g.edges ∧ e.1 ≠ e.2 :=
    fun e he => hg.onto_iff.mpr he
  have hone := ha c ⟨⟨hcycle.1.1, fun e he => (hedge e (hcycle.1.2 e he)).1⟩, hcycle.2⟩
  obtain ⟨r, rfl⟩ := List.length_eq_one_iff.mp hone
  have hloop := hcycle.1.2 (r, r) (by rw [legs_singleton]; exact List.mem_cons_self)
  exact (hedge _ hloop).2 rfl

/-- A graph has loops only if every other edge raises the level. -/
theorem onlyLoops_of_level {g : Graph} (level : Path → Nat)
    (hl : ∀ e ∈ g.edges, e.1 = e.2 ∨ level e.1 < level e.2) : g.OnlyLoops := by
  intro c hc
  obtain ⟨p, hp⟩ := List.exists_mem_of_ne_nil c hc.1.1
  obtain ⟨q, hq⟩ := exists_leg_from hp
  have mono : ∀ e ∈ g.edges, level e.1 ≤ level e.2 := fun e he =>
    (hl e he).elim (fun h => by rw [h]) Nat.le_of_lt
  have same := (hc.1.sameComponent hp (mem_of_mem_legs hq).2).level_eq mono
  obtain rfl : p = q := (hl (p, q) (hc.1.2 _ hq)).resolve_right fun h => Nat.ne_of_lt h same
  rw [eq_singleton_of_loop_mem_legs hc.2 hq]
  rfl

/-! ### Tables of longest chains -/

/-- The chains of a table are longest among the walks from their files. -/
def Longest (g : Graph) (table : ChainTable) : Prop :=
  ∀ p chain, (p, chain) ∈ table → ∀ rest, (p :: rest).IsChain g.Onto →
    (p :: rest).length ≤ chain.length

/-- A file is put into the table after all others that it imports. -/
theorem Longest.cons {g : Graph} {table : ChainTable} {next : Path} {tail : List Path}
    (h : g.Longest table)
    (hl : ∀ q, g.Onto next q → ∃ chain, (q, chain) ∈ table ∧ chain.length ≤ tail.length) :
    g.Longest ((next, next :: tail) :: table) := by
  refine ChainTable.forall_mem_cons (fun rest hrest => ?_) h
  cases rest with
  | nil => exact Nat.succ_le_succ (Nat.zero_le _)
  | cons q rest =>
      obtain ⟨hnq, hq⟩ := List.isChain_cons_cons.mp hrest
      obtain ⟨chain, hchain, hlen⟩ := hl q hnq
      exact Nat.succ_le_succ ((h q chain hchain rest hq).trans hlen)

/-- **A scan keeps the chains longest**, if the files that are being followed lead to those that are
looked at. -/
theorem Scan.longest {g : Graph} (hg : g.Proper) (ha : ∀ p, ¬ Relation.TransGen g.Onto p p)
    {following pending : List Path} {found found' : List Path × ChainTable}
    (s : Scan g following pending found found') (hn : ∀ p ∈ pending, p ∈ g.nodes)
    (hf : ∀ f ∈ following, ∀ p ∈ pending, p = f ∨ Relation.TransGen g.Onto f p)
    (h : g.Longest found.2) : g.Longest found'.2 := by
  induction s with
  | done => exact h
  | skip _ _ ih | known _ _ _ ih =>
      exact ih (List.forall_mem_cons.mp hn).2
        (fun f hff p hp => hf f hff p (List.mem_cons_of_mem _ hp)) h
  | @fresh following next more best table tail table' found' hnext _ below _ ihbelow ihrest =>
      obtain ⟨hnode, hmore⟩ := List.forall_mem_cons.mp hn
      have lead : ∀ f ∈ following, Relation.TransGen g.Onto f next := fun f hff =>
        (hf f hff next List.mem_cons_self).resolve_left fun e => hnext (e ▸ hff)
      have htable : g.Longest table' := by
        refine ihbelow (fun p hp => hg.mem_of_mem_successors hp) (fun f hff p hp => ?_) h
        by_cases hloop : p = next
        · rcases List.mem_cons.mp hff with rfl | hff
          · exact Or.inl hloop
          · exact Or.inr (hloop ▸ lead f hff)
        · have step : g.Onto next p := ⟨mem_edges.mpr ⟨hnode, hp⟩, fun e => hloop e.symm⟩
          rcases List.mem_cons.mp hff with rfl | hff
          · exact Or.inr (.single step)
          · exact Or.inr ((lead f hff).tail step)
      refine ihrest hmore (fun f hff p hp => hf f hff p (List.mem_cons_of_mem _ hp))
        (htable.cons fun q hq => below.looked q (mem_edges.mp hq.1).2 fun hff => ?_)
      -- a file being followed would lead back to itself
      rcases List.mem_cons.mp hff with rfl | hff
      · exact hq.2 rfl
      · exact ha q ((lead q hff).tail hq)

theorem Survey.longest {g : Graph} (hg : g.Proper) (ha : ∀ p, ¬ Relation.TransGen g.Onto p p)
    {nodes : List Path} {table table' : ChainTable} {chains : List (List Path)}
    (w : Survey g nodes table chains table') (hn : ∀ p ∈ nodes, p ∈ g.nodes)
    (h : g.Longest table) : g.Longest table' := by
  induction w with
  | done => exact h
  | next s _ ih =>
      obtain ⟨hnode, hnodes⟩ := List.forall_mem_cons.mp hn
      refine ih hnodes (s.longest hg ha (List.forall_mem_singleton.mpr hnode) ?_ h)
      exact fun f hf => absurd hf List.not_mem_nil

/-! ### Chains that are told -/

/-- The chain of every file is longest among the walks from it. -/
theorem Linked.longestChains_longest {g : Graph} (hg : g.Linked) (ha : g.OnlyLoops) :
    (∀ c ∈ g.longestChains, ∀ walk, g.IsStrictWalk walk → walk.head? = c.head? →
      walk.length ≤ c.length) ∧ g.longestChains.map List.head? = g.nodes.map some := by
  obtain ⟨table, w⟩ := hg.toProper.survey_longestChains
  obtain ⟨hcharted, hheads, hchains⟩ := w.charted hg.toProper (fun _ hp => hp) (Charted.empty g)
  have hlongest := w.longest hg.toProper (hg.not_transGen_onto ha) (fun _ hp => hp)
    fun p chain hc => absurd hc List.not_mem_nil
  refine ⟨fun c hc walk hw hhead => ?_, hheads⟩
  obtain ⟨p, hp⟩ := hchains c hc
  rw [hcharted.starts p c hp] at hhead
  obtain ⟨rest, rfl⟩ := List.head?_eq_some_iff.mp hhead
  exact hlongest p c hp rest hw.2

/-- A deep walk has a candidate at its start that is no shorter. -/
theorem Linked.exists_candidate {g : Graph} (hg : g.Linked) (ha : g.OnlyLoops) {depth : Nat}
    {walk : List Path} (hw : g.IsStrictWalk walk) (hdeep : depth < walk.length - 1) :
    ∃ c ∈ g.candidates depth, c.head? = walk.head? ∧ walk.length ≤ c.length := by
  obtain ⟨hlongest, hheads⟩ := hg.longestChains_longest ha
  obtain ⟨-, hchain⟩ := hw
  cases walk with
  | nil => exact absurd hdeep (Nat.not_lt_zero _)
  | cons p rest =>
      have hp : p ∈ g.nodes := by
        cases rest with
        | nil => exact absurd hdeep (Nat.not_lt_zero _)
        | cons q rest => exact (mem_edges.mp (List.isChain_cons_cons.mp hchain).1.1).1
      have hstart : some p ∈ g.longestChains.map List.head? := by
        rw [hheads]
        exact List.mem_map_of_mem hp
      obtain ⟨c, hc, hhead⟩ := List.mem_map.mp hstart
      have hlen := hlongest c hc _ ⟨List.cons_ne_nil _ _, hchain⟩ hhead.symm
      exact ⟨c, mem_candidates.mpr ⟨hc, by omega⟩, hhead, hlen⟩

/-- The first candidate is told first. -/
theorem head?_deepChains (g : Graph) (depth : Nat) :
    (g.deepChains depth).head? = (g.candidates depth).head? := by
  rw [deepChains_eq_take, List.head?_take, if_neg (by decide)]
  cases hc : g.candidates depth with
  | nil => rfl
  | cons c more =>
      have hdeep := (mem_candidates.mp (hc ▸ List.mem_cons_self : c ∈ g.candidates depth)).2
      cases c with
      | nil => exact absurd hdeep (Nat.not_lt_zero _)
      | cons first rest =>
          rw [uncovered_of_not_mem List.not_mem_nil]
          rfl

/-- The first chain told is no shorter than any candidate. -/
theorem length_le_of_head? {g : Graph} {depth : Nat} {c : List Path}
    (hc : c ∈ (g.deepChains depth).head?) {d : List Path} (hd : d ∈ g.candidates depth) :
    d.length ≤ c.length := by
  rw [head?_deepChains] at hc
  obtain ⟨more, e⟩ := List.head?_eq_some_iff.mp hc
  have sorted := g.pairwise_candidates depth
  rw [e] at hd sorted
  rcases List.mem_cons.mp hd with rfl | hd
  · exact Nat.le_refl _
  · exact (List.pairwise_cons.mp sorted).1 d hd

/-- The chains told above a depth are the longest walks. -/
structure LongestTold (g : Graph) (depth : Nat) (told : List (List Path)) : Prop where
  isStrictWalk : ∀ c ∈ told, g.IsStrictWalk c
  /-- No walk from the first file of a chain is longer. -/
  longest : ∀ c ∈ told, ∀ walk, g.IsStrictWalk walk → walk.head? = c.head? →
    walk.length ≤ c.length
  /-- Chains are told exactly if there is a walk with more than `depth` imports. -/
  told_iff : told ≠ [] ↔ ∃ walk, g.IsStrictWalk walk ∧ depth < walk.length - 1
  /-- No walk of the graph is longer than the first chain. -/
  first : ∀ c ∈ told.head?, ∀ walk, g.IsStrictWalk walk → walk.length ≤ c.length
  /-- Unless ten chains are told, the start of every deep walk lies on one of them. -/
  covers : told.length < 10 → ∀ walk, g.IsStrictWalk walk → depth < walk.length - 1 →
    ∀ p ∈ walk.head?, ∃ c ∈ told, p ∈ c

theorem Linked.longestTold {g : Graph} (hg : g.Linked) (ha : g.OnlyLoops) (depth : Nat) :
    g.LongestTold depth (g.deepChains depth) := by
  have sound := hg.toProper.soundChains depth
  have strict : ∀ c ∈ g.deepChains depth, g.IsStrictWalk c :=
    fun c hc => (sound.isSimpleWalk c hc).strict
  have hmem : ∀ c ∈ g.deepChains depth, c ∈ g.longestChains := fun c hc =>
    (mem_candidates.mp ((g.deepChains_sublist depth).subset hc)).1
  refine ⟨strict, fun c hc => (hg.longestChains_longest ha).1 c (hmem c hc), ⟨fun hne => ?_, ?_⟩,
    fun c hc walk hw => ?_, fun hfew walk hw hdeep p hp => ?_⟩
  · obtain ⟨c, hc⟩ := List.exists_mem_of_ne_nil _ hne
    exact ⟨c, strict c hc, sound.deep c hc⟩
  · rintro ⟨walk, hw, hdeep⟩ hnil
    obtain ⟨d, hd, -⟩ := hg.exists_candidate ha hw hdeep
    have hhead := g.head?_deepChains depth
    rw [hnil] at hhead
    rw [List.head?_eq_none_iff.mp hhead.symm] at hd
    cases hd
  · by_cases hdeep : depth < walk.length - 1
    · obtain ⟨d, hd, -, hlen⟩ := hg.exists_candidate ha hw hdeep
      exact hlen.trans (length_le_of_head? hc hd)
    · have := sound.deep c (List.mem_of_mem_head? hc)
      omega
  · obtain ⟨d, hd, hhead, -⟩ := hg.exists_candidate ha hw hdeep
    obtain ⟨hd, hdeep⟩ := mem_candidates.mp hd
    exact exists_mem_deepChains hfew hd hdeep (hhead ▸ hp)

/-- **Longest chains.**  If there are no cycles but loops, the chains told above a depth are longest
walks, and leave out no deep walk but by the limit of ten. -/
theorem deepChains_onlyLoops (outlines : List Outline) (policy : SelfLoops) (depth : Nat) :
    let g := ofOutlines outlines policy
    g.OnlyLoops → g.LongestTold depth (g.deepChains depth) := by
  intro g ha
  exact (ofOutlines_linked outlines policy).longestTold ha depth

/-- From `a` two ways lead to `d`, one of them by way of `b` and `c`; `c` imports itself too. -/
def detourScripts : List Outline :=
  [scriptImporting "a.ts" ["b", "d"], scriptImporting "b.ts" ["c"],
    scriptImporting "c.ts" ["c", "d"], scriptImporting "d.ts" []]

theorem edges_detourScripts {e : Path × Path} :
    e ∈ (ofOutlines detourScripts .report).edges ↔
      e ∈ ([(⟨"a.ts"⟩, ⟨"b.ts"⟩), (⟨"a.ts"⟩, ⟨"d.ts"⟩), (⟨"b.ts"⟩, ⟨"c.ts"⟩), (⟨"c.ts"⟩, ⟨"c.ts"⟩),
        (⟨"c.ts"⟩, ⟨"d.ts"⟩)] : List (Path × Path)) :=
  mem_edges_of_ascending (by decide +kernel) (by decide +kernel)

theorem deepChains_onlyLoops_detourScripts :
    (ofOutlines detourScripts .report).OnlyLoops ∧
      (ofOutlines detourScripts .report).LongestTold 1
        ((ofOutlines detourScripts .report).deepChains 1) := by
  have ha : (ofOutlines detourScripts .report).OnlyLoops := by
    refine onlyLoops_of_level
      (fun p => [⟨"a.ts"⟩, ⟨"b.ts"⟩, ⟨"c.ts"⟩, ⟨"d.ts"⟩].findIdx (· == p)) ?_
    simp only [edges_detourScripts]
    decide +kernel
  exact ⟨ha, deepChains_onlyLoops detourScripts .report 1 ha⟩

end ArchReview.Graph

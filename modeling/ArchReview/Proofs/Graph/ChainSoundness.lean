import ArchReview.Proofs.Graph.Depth
import ArchReview.Proofs.Graph.WithoutLoops
import Mathlib.Data.List.Chain

/-!
# Every told chain is a path

`Scan` looks at some files one after the other and follows each of them to its longest chain,
without any bound: a file that is being followed is passed over, the chain of a known file is taken
from the table, and any other file is followed through its successors and put into the table.
`Survey` does so for every file of a list.  The bounded recursion of the program is such a survey
(`Proper.survey_longestChains`): each file that is followed takes one from the room left, which is
the number of files that are not being followed.

`Charted` is what a scan keeps (`Scan.charted`).  No file in the table is being followed, and the
chains of the table pass through files of the table only.  So a chain that was worked out below one
file can be used below another without coming back to a file that is being followed.

**Soundness** (`soundChains_deepChains`).  Following ends; the chains told above a depth are simple
paths of the graph with more imports than that, at most ten of them, the longest first, and none
starts inside an earlier one.
-/

namespace ArchReview

/-! ### Tables -/

namespace ChainTable

/-- The files with a chain. -/
def files (table : ChainTable) : List Path := table.map Prod.fst

theorem mem_files {table : ChainTable} {p : Path} :
    p ∈ table.files ↔ ∃ chain, (p, chain) ∈ table := by
  simp [files]

theorem mem_of_find? {table : ChainTable} {p : Path} {chain : List Path}
    (h : table.find? p = some chain) : (p, chain) ∈ table := by
  obtain ⟨⟨q, c⟩, he, rfl⟩ := Option.map_eq_some_iff.mp h
  have hq : q = p := by simpa using List.find?_some he
  exact hq ▸ List.mem_of_find?_eq_some he

theorem not_mem_files_of_find? {table : ChainTable} {p : Path} (h : table.find? p = none) :
    p ∉ table.files := by
  intro hp
  obtain ⟨chain, hc⟩ := mem_files.mp hp
  have := List.find?_eq_none.mp (Option.map_eq_none_iff.mp h) _ hc
  simp at this

theorem forall_mem_cons {P : Path → List Path → Prop} {table : ChainTable} {next : Path}
    {chain : List Path} (h : P next chain) (ht : ∀ p c, (p, c) ∈ table → P p c) :
    ∀ p c, (p, c) ∈ (next, chain) :: table → P p c := by
  intro p c hc
  rcases List.mem_cons.mp hc with e | hc
  · obtain ⟨rfl, rfl⟩ := Prod.mk.inj e
    exact h
  · exact ht p c hc

end ChainTable

namespace Graph

/-! ### Walks -/

/-- A directed path that may pass through a file more than once. -/
def IsWalk (g : Graph) (walk : List Path) : Prop :=
  walk ≠ [] ∧ walk.IsChain fun p q => (p, q) ∈ g.edges

/-- A simple directed path: distinct files, each importing the next. -/
def IsSimpleWalk (g : Graph) (walk : List Path) : Prop := g.IsWalk walk ∧ walk.Nodup

instance (g : Graph) (walk : List Path) : Decidable (g.IsWalk walk) :=
  inferInstanceAs (Decidable (_ ∧ _))

instance (g : Graph) (walk : List Path) : Decidable (g.IsSimpleWalk walk) :=
  inferInstanceAs (Decidable (_ ∧ _))

theorem isSimpleWalk_singleton (g : Graph) (p : Path) : g.IsSimpleWalk [p] :=
  ⟨⟨List.cons_ne_nil _ _, List.isChain_singleton p⟩, List.nodup_singleton p⟩

theorem IsSimpleWalk.cons {g : Graph} {p q : Path} {walk : List Path} (h : g.IsSimpleWalk walk)
    (hq : walk.head? = some q) (he : (p, q) ∈ g.edges) (hp : p ∉ walk) :
    g.IsSimpleWalk (p :: walk) := by
  refine ⟨⟨List.cons_ne_nil _ _, h.1.2.cons fun r hr => ?_⟩, List.nodup_cons.mpr ⟨hp, h.2⟩⟩
  rw [hq] at hr
  exact Option.some.inj hr ▸ he

/-! ### Following without a bound -/

/-- The longer of two chains, the first among equals. -/
def longer (best chain : List Path) : List Path :=
  if chain.length > best.length then chain else best

theorem longer_nil (chain : List Path) : longer [] chain = chain := by
  cases chain with
  | nil => rfl
  | cons p rest => exact if_pos (Nat.succ_pos _)

theorem longer_eq (best chain : List Path) :
    longer best chain = best ∨ longer best chain = chain := by
  unfold longer
  split
  · exact Or.inr rfl
  · exact Or.inl rfl

theorem le_length_longer (best chain : List Path) :
    best.length ≤ (longer best chain).length ∧ chain.length ≤ (longer best chain).length := by
  unfold longer
  split <;> omega

/-- Some files are looked at while others are being followed: from the best chain so far and the
table to those at the end. -/
inductive Scan (g : Graph) :
    List Path → List Path → List Path × ChainTable → List Path × ChainTable → Prop where
  | done {following found} : Scan g following [] found found
  /-- A file that is being followed is passed over. -/
  | skip {following next more found found'} (h : next ∈ following)
      (rest : Scan g following more found found') : Scan g following (next :: more) found found'
  /-- The chain of a file in the table is known. -/
  | known {following next more best table chain found'} (h : next ∉ following)
      (hk : ChainTable.find? table next = some chain)
      (rest : Scan g following more (longer best chain, table) found') :
      Scan g following (next :: more) (best, table) found'
  /-- Any other file is followed through its successors. -/
  | fresh {following next more best table tail table' found'} (h : next ∉ following)
      (hn : ChainTable.find? table next = none)
      (below : Scan g (next :: following) (g.successors next) ([], table) (tail, table'))
      (rest : Scan g following more
        (longer best (next :: tail), (next, next :: tail) :: table') found') :
      Scan g following (next :: more) (best, table) found'

/-- Some files are followed one after the other: from the table to their chains and the table at the
end. -/
inductive Survey (g : Graph) : List Path → ChainTable → List (List Path) → ChainTable → Prop where
  | done {table} : Survey g [] table [] table
  | next {node nodes table chain table' chains table''}
      (s : Scan g [] [node] ([], table) (chain, table'))
      (w : Survey g nodes table' chains table'') :
      Survey g (node :: nodes) table (chain :: chains) table''

/-! ### The bounded recursion is a survey -/

/-- The number of files that are not being followed. -/
def room (g : Graph) (following : List Path) : Nat :=
  (g.nodes.filter fun p => !following.contains p).length

theorem room_cons_lt {g : Graph} {following : List Path} {p : Path} (hp : p ∈ g.nodes)
    (h : p ∉ following) : g.room (p :: following) < g.room following := by
  have e : (g.nodes.filter fun q => !(p :: following).contains q) =
      (g.nodes.filter fun q => !following.contains q).filter fun q => q != p := by
    rw [List.filter_filter]
    refine List.filter_congr fun q _ => ?_
    rw [List.contains_cons, Bool.not_or]
    rfl
  rw [room, room, e, List.length_filter_lt_length_iff_exists]
  exact ⟨p, List.mem_filter.mpr ⟨hp, by simpa using h⟩, by simp⟩

theorem extendBest_of_mem {g : Graph} {fuel : Nat} {following : List Path} {next : Path}
    (h : next ∈ following) (found : List Path × ChainTable) :
    g.extendBest fuel following found next = found :=
  if_pos (List.contains_iff_mem.mpr h)

theorem extendBest_of_not_mem {g : Graph} {fuel : Nat} {following : List Path} {next : Path}
    (h : next ∉ following) (found : List Path × ChainTable) :
    g.extendBest fuel following found next =
      (longer found.1 (g.longestFrom fuel following next found.2).1,
        (g.longestFrom fuel following next found.2).2) :=
  if_neg fun hc => h (List.contains_iff_mem.mp hc)

/-- **The bounded recursion makes a scan**, if the bound is not below the room left. -/
theorem Proper.scan_foldl {g : Graph} (hg : g.Proper) (fuel : Nat) :
    ∀ {following : List Path}, g.room following ≤ fuel →
      ∀ (pending : List Path) (found : List Path × ChainTable), (∀ p ∈ pending, p ∈ g.nodes) →
        Scan g following pending found (pending.foldl (g.extendBest fuel following) found) := by
  induction fuel with
  | zero =>
      intro following hroom pending
      induction pending with
      | nil => exact fun _ _ => .done
      | cons next more ih =>
          intro found hp
          obtain ⟨hnext, hmore⟩ := List.forall_mem_cons.mp hp
          -- without room every file is being followed
          have h : next ∈ following := by
            by_contra h
            have := room_cons_lt hnext h
            omega
          rw [List.foldl_cons, extendBest_of_mem h]
          exact .skip h (ih found hmore)
  | succ fuel below =>
      intro following hroom pending
      induction pending with
      | nil => exact fun _ _ => .done
      | cons next more ih =>
          intro ⟨best, table⟩ hp
          obtain ⟨hnext, hmore⟩ := List.forall_mem_cons.mp hp
          rw [List.foldl_cons]
          by_cases h : next ∈ following
          · rw [extendBest_of_mem h]
            exact .skip h (ih _ hmore)
          · rw [extendBest_of_not_mem h, longestFrom_succ]
            have hless := room_cons_lt hnext h
            cases hf : table.find? next with
            | some chain => exact .known h hf (ih _ hmore)
            | none =>
                exact .fresh h hf (below (by omega) (g.successors next) ([], table)
                  fun p hp => hg.mem_of_mem_successors hp) (ih _ hmore)

/-- Following a file when none is being followed is looking at it alone. -/
theorem extendBest_nil (g : Graph) (fuel : Nat) (table : ChainTable) (node : Path) :
    g.extendBest fuel [] ([], table) node = g.longestFrom fuel [] node table := by
  rw [extendBest_of_not_mem List.not_mem_nil, longer_nil]

theorem Proper.survey_foldl {g : Graph} (hg : g.Proper) (nodes : List Path)
    (hn : ∀ p ∈ nodes, p ∈ g.nodes) (chains : List (List Path)) (table : ChainTable) :
    ∃ more table', Survey g nodes table more table' ∧
      (nodes.foldl (fun found node =>
        let (chain, table) := g.longestFrom (g.nodes.length + 1) [] node found.2
        (found.1 ++ [chain], table)) (chains, table)).1 = chains ++ more := by
  induction nodes generalizing chains table with
  | nil => exact ⟨[], table, .done, (List.append_nil _).symm⟩
  | cons node nodes ih =>
      obtain ⟨hnode, hnodes⟩ := List.forall_mem_cons.mp hn
      have hroom : g.room [] ≤ g.nodes.length + 1 :=
        (List.length_filter_le _ _).trans (Nat.le_succ _)
      have scan : Scan g [] [node] ([], table)
          (g.longestFrom (g.nodes.length + 1) [] node table) := by
        have := hg.scan_foldl _ hroom [node] ([], table) (List.forall_mem_singleton.mpr hnode)
        rwa [List.foldl_cons, List.foldl_nil, extendBest_nil] at this
      obtain ⟨more, table', w, e⟩ := ih hnodes
        (chains ++ [(g.longestFrom (g.nodes.length + 1) [] node table).1])
        (g.longestFrom (g.nodes.length + 1) [] node table).2
      refine ⟨_ :: more, table', .next scan w, ?_⟩
      rw [List.foldl_cons, e, List.append_assoc]
      rfl

/-- **Following every file ends**, and the chains are those that the bounded recursion finds. -/
theorem Proper.survey_longestChains {g : Graph} (hg : g.Proper) :
    ∃ table, Survey g g.nodes [] g.longestChains table := by
  obtain ⟨chains, table, w, e⟩ := hg.survey_foldl g.nodes (fun _ hp => hp) [] []
  rw [longestChains_eq, e]
  exact ⟨table, w⟩

/-! ### What a scan does to the table -/

section
variable {g : Graph} {following pending : List Path} {found found' : List Path × ChainTable}

/-- Nothing is taken out of the table. -/
theorem Scan.subset (s : Scan g following pending found found') : found.2 ⊆ found'.2 := by
  induction s with
  | done => exact List.Subset.refl _
  | skip _ _ ih => exact ih
  | known _ _ _ ih => exact ih
  | fresh _ _ _ _ below rest =>
      exact fun e he => rest (List.mem_cons_of_mem _ (below he))

/-- The best chain does not get shorter. -/
theorem Scan.length_le (s : Scan g following pending found found') :
    found.1.length ≤ found'.1.length := by
  induction s with
  | done => exact Nat.le_refl _
  | skip _ _ ih => exact ih
  | known _ _ _ ih => exact (le_length_longer _ _).1.trans ih
  | fresh _ _ _ _ _ ih => exact (le_length_longer _ _).1.trans ih

/-- Every file that is not being followed has a chain at the end, no longer than the best. -/
theorem Scan.looked (s : Scan g following pending found found') :
    ∀ p ∈ pending, p ∉ following →
      ∃ chain, (p, chain) ∈ found'.2 ∧ chain.length ≤ found'.1.length := by
  induction s with
  | done => exact fun p hp => absurd hp List.not_mem_nil
  | skip h _ ih =>
      intro p hp hf
      rcases List.mem_cons.mp hp with rfl | hp
      · exact absurd h hf
      · exact ih p hp hf
  | known _ hk rest ih =>
      intro p hp hf
      rcases List.mem_cons.mp hp with rfl | hp
      · exact ⟨_, rest.subset (ChainTable.mem_of_find? hk),
          (le_length_longer _ _).2.trans rest.length_le⟩
      · exact ih p hp hf
  | fresh _ _ _ rest _ ih =>
      intro p hp hf
      rcases List.mem_cons.mp hp with rfl | hp
      · exact ⟨_, rest.subset List.mem_cons_self, (le_length_longer _ _).2.trans rest.length_le⟩
      · exact ih p hp hf

end

/-! ### Charted tables -/

/-- What holds of the table while some files are being followed. -/
structure Charted (g : Graph) (following : List Path) (table : ChainTable) : Prop where
  /-- No file in the table is being followed. -/
  apart : ∀ p ∈ table.files, p ∉ following
  starts : ∀ p chain, (p, chain) ∈ table → chain.head? = some p
  simple : ∀ p chain, (p, chain) ∈ table → g.IsSimpleWalk chain
  /-- Chains pass through files of the table only. -/
  closed : ∀ p chain, (p, chain) ∈ table → chain ⊆ table.files

/-- The best chain, if there is one, is the chain of one of the files. -/
def Drawn (files : List Path) (found : List Path × ChainTable) : Prop :=
  found.1 ≠ [] → ∃ p ∈ files, (p, found.1) ∈ found.2

theorem Charted.empty (g : Graph) : g.Charted [] [] :=
  ⟨fun _ _ => List.not_mem_nil, by simp, by simp, by simp⟩

theorem Drawn.longer {files best chain : List Path} {table : ChainTable} {p : Path}
    (h : Drawn files (best, table)) (hp : p ∈ files) (hc : (p, chain) ∈ table) :
    Drawn files (Graph.longer best chain, table) := by
  rcases longer_eq best chain with e | e
  · rwa [e]
  · rw [e]
    exact fun _ => ⟨p, hp, hc⟩

theorem Drawn.mono {files best : List Path} {table table' : ChainTable}
    (h : Drawn files (best, table)) (hs : table ⊆ table') : Drawn files (best, table') := by
  intro hne
  obtain ⟨p, hp, hc⟩ := h hne
  exact ⟨p, hp, hs hc⟩

section
variable {g : Graph} {following : List Path} {next : Path} {table : ChainTable}

/-- A file that is not in the table may be followed. -/
theorem Charted.follow (h : g.Charted following table) (hn : next ∉ table.files) :
    g.Charted (next :: following) table :=
  { h with
    apart := fun p hp hf => (List.mem_cons.mp hf).elim (fun e => hn (e ▸ hp)) (h.apart p hp) }

/-- The file in front of the best chain of its successors is a simple path: the chain passes through
files of the table, and the file is being followed. -/
theorem Charted.simple_cons {tail : List Path} (h : g.Charted (next :: following) table)
    (hnext : next ∈ g.nodes) (hd : Drawn (g.successors next) (tail, table)) :
    g.IsSimpleWalk (next :: tail) := by
  by_cases ht : tail = []
  · rw [ht]
    exact g.isSimpleWalk_singleton next
  · obtain ⟨q, hq, hc⟩ := hd ht
    refine (h.simple q tail hc).cons (h.starts q tail hc) (mem_edges.mpr ⟨hnext, hq⟩) fun hin => ?_
    exact h.apart next (h.closed q tail hc hin) List.mem_cons_self

/-- A file that has been followed is put into the table with its chain. -/
theorem Charted.leave {tail : List Path} (h : g.Charted (next :: following) table)
    (hnext : next ∈ g.nodes) (hf : next ∉ following)
    (hd : Drawn (g.successors next) (tail, table)) :
    g.Charted following ((next, next :: tail) :: table) where
  apart p hp hpf := by
    rcases List.mem_cons.mp hp with rfl | hp
    · exact hf hpf
    · exact h.apart p hp (List.mem_cons_of_mem _ hpf)
  starts := ChainTable.forall_mem_cons rfl h.starts
  simple := ChainTable.forall_mem_cons (h.simple_cons hnext hd) h.simple
  closed := by
    refine ChainTable.forall_mem_cons (List.cons_subset_cons next fun r hr => ?_)
      fun p chain hc r hr => List.mem_cons_of_mem _ (h.closed p chain hc hr)
    obtain ⟨q, -, hq⟩ := hd (List.ne_nil_of_mem hr)
    exact h.closed q tail hq hr

end

/-- **A scan keeps the table charted**, and its best chain is that of a file it has looked at. -/
theorem Scan.charted {g : Graph} (hg : g.Proper) {following pending files : List Path}
    {found found' : List Path × ChainTable} (s : Scan g following pending found found')
    (hp : pending ⊆ files) (hn : ∀ p ∈ files, p ∈ g.nodes) (h : g.Charted following found.2)
    (hd : Drawn files found) : g.Charted following found'.2 ∧ Drawn files found' := by
  induction s generalizing files with
  | done => exact ⟨h, hd⟩
  | skip _ _ ih => exact ih (List.subset_of_cons_subset hp) hn h hd
  | known _ hk _ ih =>
      have hnext := hp List.mem_cons_self
      exact ih (List.subset_of_cons_subset hp) hn h (hd.longer hnext (ChainTable.mem_of_find? hk))
  | @fresh following next more best table tail table' found' hf hnone below rest ihbelow ihrest =>
      have hnext := hp List.mem_cons_self
      obtain ⟨hcharted, htail⟩ := ihbelow (List.Subset.refl _)
        (fun p hp => hg.mem_of_mem_successors hp)
        (h.follow (ChainTable.not_mem_files_of_find? hnone)) fun hne => absurd rfl hne
      refine ihrest (List.subset_of_cons_subset hp) hn
        (hcharted.leave (hn next hnext) hf htail) ?_
      exact (hd.mono fun e he => List.mem_cons_of_mem _ (below.subset he)).longer hnext
        List.mem_cons_self

/-- Looking at one file alone gives its chain. -/
theorem Scan.mem_of_singleton {g : Graph} (hg : g.Proper) {node : Path} (hn : node ∈ g.nodes)
    {table table' : ChainTable} {chain : List Path}
    (s : Scan g [] [node] ([], table) (chain, table')) (h : g.Charted [] table) :
    g.Charted [] table' ∧ (node, chain) ∈ table' := by
  obtain ⟨hcharted, hd⟩ := s.charted hg (List.Subset.refl _) (List.forall_mem_singleton.mpr hn) h
    fun hne => absurd rfl hne
  obtain ⟨c, hc, hlen⟩ := s.looked node List.mem_cons_self List.not_mem_nil
  have hne : chain ≠ [] := by
    rintro rfl
    have hstart := hcharted.starts node c hc
    rw [List.length_eq_zero_iff.mp (Nat.le_zero.mp hlen)] at hstart
    cases hstart
  obtain ⟨p, hp, hmem⟩ := hd hne
  exact ⟨hcharted, List.mem_singleton.mp hp ▸ hmem⟩

/-- Nothing is taken out of the table. -/
theorem Survey.subset {g : Graph} {nodes : List Path} {table table' : ChainTable}
    {chains : List (List Path)} (w : Survey g nodes table chains table') : table ⊆ table' := by
  induction w with
  | done => exact List.Subset.refl _
  | next s _ ih => exact fun e he => ih (s.subset he)

/-- **A survey keeps the table charted**; its chains are in the table, one from each file. -/
theorem Survey.charted {g : Graph} (hg : g.Proper) {nodes : List Path} {table table' : ChainTable}
    {chains : List (List Path)} (w : Survey g nodes table chains table')
    (hn : ∀ p ∈ nodes, p ∈ g.nodes) (h : g.Charted [] table) :
    g.Charted [] table' ∧ chains.map List.head? = nodes.map some ∧
      ∀ chain ∈ chains, ∃ p, (p, chain) ∈ table' := by
  induction w with
  | done => exact ⟨h, rfl, fun _ hc => absurd hc List.not_mem_nil⟩
  | next s w ih =>
      obtain ⟨hnode, hnodes⟩ := List.forall_mem_cons.mp hn
      obtain ⟨hcharted, hc⟩ := s.mem_of_singleton hg hnode h
      obtain ⟨hend, hheads, hall⟩ := ih hnodes hcharted
      refine ⟨hend, ?_, List.forall_mem_cons.mpr ⟨⟨_, w.subset hc⟩, hall⟩⟩
      rw [List.map_cons, List.map_cons, hcharted.starts _ _ hc, hheads]

/-! ### Chains that are told -/

theorem uncovered_of_not_mem {covered rest : List Path} {first : Path} (h : first ∉ covered)
    (chains : List (List Path)) :
    uncovered covered ((first :: rest) :: chains) =
      (first :: rest) :: uncovered (covered ++ rest) chains :=
  if_neg fun hc => h (List.contains_iff_mem.mp hc)

theorem uncovered_sublist (covered : List Path) (chains : List (List Path)) :
    (uncovered covered chains).Sublist chains := by
  fun_induction uncovered covered chains with
  | case1 => exact List.Sublist.refl _
  | case2 _ _ ih => exact ih.cons _
  | case3 _ _ _ _ _ ih => exact ih.cons _
  | case4 _ _ _ _ _ ih => exact ih.cons_cons _

/-- No chain that is kept starts at a covered file. -/
theorem head?_not_mem_of_uncovered (covered : List Path) (chains : List (List Path)) :
    ∀ c ∈ uncovered covered chains, ∀ p ∈ c.head?, p ∉ covered := by
  fun_induction uncovered covered chains with
  | case1 => exact fun c hc => absurd hc List.not_mem_nil
  | case2 _ _ ih => exact ih
  | case3 _ _ _ _ _ ih => exact ih
  | case4 covered chains first rest h ih =>
      intro c hc p hp hin
      rcases List.mem_cons.mp hc with rfl | hc
      · exact h (List.contains_iff_mem.mpr (Option.some.inj hp ▸ hin))
      · exact ih c hc p hp (List.mem_append_left _ hin)

/-- No chain that is kept starts at a later file of an earlier one. -/
theorem pairwise_uncovered (covered : List Path) (chains : List (List Path)) :
    (uncovered covered chains).Pairwise fun c d => ∀ p ∈ d.head?, p ∉ c.tail := by
  fun_induction uncovered covered chains with
  | case1 => exact List.Pairwise.nil
  | case2 _ _ ih => exact ih
  | case3 _ _ _ _ _ ih => exact ih
  | case4 covered chains first rest h ih =>
      refine List.pairwise_cons.mpr ⟨fun d hd p hp hin => ?_, ih⟩
      exact head?_not_mem_of_uncovered _ _ d hd p hp (List.mem_append_right _ hin)

/-- Every chain starts at a covered file or in a chain that is kept. -/
theorem mem_covered_or_uncovered (covered : List Path) (chains : List (List Path)) :
    ∀ c ∈ chains, ∀ p ∈ c.head?, p ∈ covered ∨ ∃ d ∈ uncovered covered chains, p ∈ d := by
  fun_induction uncovered covered chains with
  | case1 => exact fun c hc => absurd hc List.not_mem_nil
  | case2 covered chains ih =>
      intro c hc p hp
      rcases List.mem_cons.mp hc with rfl | hc
      · cases hp
      · exact ih c hc p hp
  | case3 covered chains first rest h ih =>
      intro c hc p hp
      rcases List.mem_cons.mp hc with rfl | hc
      · exact Or.inl (Option.some.inj hp ▸ List.contains_iff_mem.mp h)
      · exact ih c hc p hp
  | case4 covered chains first rest h ih =>
      intro c hc p hp
      rcases List.mem_cons.mp hc with rfl | hc
      · exact Or.inr ⟨_, List.mem_cons_self, List.mem_of_mem_head? hp⟩
      · rcases ih c hc p hp with hin | ⟨d, hd, hin⟩
        · rcases List.mem_append.mp hin with hin | hin
          · exact Or.inl hin
          · exact Or.inr ⟨_, List.mem_cons_self, List.mem_cons_of_mem _ hin⟩
        · exact Or.inr ⟨d, List.mem_cons_of_mem _ hd, hin⟩

/-- The chains with more than `depth` imports, the longest first. -/
def candidates (g : Graph) (depth : Nat) : List (List Path) :=
  (g.longestChains.filter fun chain => chain.length - 1 > depth).mergeSort chainLe

theorem deepChains_eq_take (g : Graph) (depth : Nat) :
    g.deepChains depth = (uncovered [] (g.candidates depth)).take maxChains := rfl

theorem mem_candidates {g : Graph} {depth : Nat} {c : List Path} :
    c ∈ g.candidates depth ↔ c ∈ g.longestChains ∧ depth < c.length - 1 := by
  simp [candidates]

/-- Unless ten chains are told, every deep chain starts in one that is. -/
theorem exists_mem_deepChains {g : Graph} {depth : Nat} (h : (g.deepChains depth).length < 10)
    {c : List Path} (hc : c ∈ g.longestChains) (hdeep : depth < c.length - 1) {p : Path}
    (hp : p ∈ c.head?) : ∃ d ∈ g.deepChains depth, p ∈ d := by
  have all : g.deepChains depth = uncovered [] (g.candidates depth) := by
    rw [deepChains_eq_take, List.length_take, maxChains] at h
    rw [deepChains_eq_take, List.take_of_length_le]
    rw [maxChains]
    omega
  rw [all]
  exact (mem_covered_or_uncovered [] _ c (mem_candidates.mpr ⟨hc, hdeep⟩) p hp).resolve_left
    List.not_mem_nil

theorem deepChains_sublist (g : Graph) (depth : Nat) :
    (g.deepChains depth).Sublist (g.candidates depth) :=
  (List.take_sublist _ _).trans (uncovered_sublist _ _)

theorem pairwise_candidates (g : Graph) (depth : Nat) :
    (g.candidates depth).Pairwise fun c d => d.length ≤ c.length :=
  (List.pairwise_mergeSort chainLe_trans chainLe_total _).imp length_le_of_chainLe

/-- No two chains start at the same file. -/
theorem Proper.nodup_heads {g : Graph} (hg : g.Proper) (depth : Nat) :
    ((g.candidates depth).map List.head?).Nodup := by
  obtain ⟨table, w⟩ := hg.survey_longestChains
  have all : (g.longestChains.map List.head?).Nodup := by
    rw [(w.charted hg (fun _ hp => hp) (Charted.empty g)).2.1]
    exact hg.ascending.nodup.map (Option.some_injective _)
  have sorted := List.mergeSort_perm
    (g.longestChains.filter fun chain => chain.length - 1 > depth) chainLe
  exact (sorted.map List.head?).nodup_iff.mpr (all.sublist (List.filter_sublist.map List.head?))

/-- What the chains told above a depth are worth. -/
structure SoundChains (g : Graph) (depth : Nat) (told : List (List Path)) : Prop where
  /-- Following every file ends.  What is told was found by it, and unless ten chains are told,
  every deep chain it found starts in one of them. -/
  ends : ∃ chains table, Survey g g.nodes [] chains table ∧ told ⊆ chains ∧
    (told.length < 10 → ∀ c ∈ chains, depth < c.length - 1 → ∀ p ∈ c.head?, ∃ d ∈ told, p ∈ d)
  isSimpleWalk : ∀ c ∈ told, g.IsSimpleWalk c
  deep : ∀ c ∈ told, depth < c.length - 1
  few : told.length ≤ 10
  longest_first : told.Pairwise fun c d => d.length ≤ c.length
  /-- No chain starts inside an earlier one. -/
  apart : told.Pairwise fun c d => ∀ p ∈ d.head?, p ∉ c

theorem Proper.soundChains {g : Graph} (hg : g.Proper) (depth : Nat) :
    g.SoundChains depth (g.deepChains depth) := by
  have hsub := g.deepChains_sublist depth
  have hmem : ∀ c ∈ g.deepChains depth, c ∈ g.longestChains ∧ depth < c.length - 1 :=
    fun c hc => mem_candidates.mp (hsub.subset hc)
  obtain ⟨table, w⟩ := hg.survey_longestChains
  obtain ⟨hcharted, -, hchains⟩ := w.charted hg (fun _ hp => hp) (Charted.empty g)
  refine ⟨⟨_, table, w, fun c hc => (hmem c hc).1,
      fun hfew c hc hdeep p hp => exists_mem_deepChains hfew hc hdeep hp⟩,
    fun c hc => ?_, fun c hc => (hmem c hc).2, List.length_take_le _ _,
    (g.pairwise_candidates depth).sublist hsub, ?_⟩
  · obtain ⟨p, hp⟩ := hchains c (hmem c hc).1
    exact hcharted.simple p c hp
  · -- a later chain starts neither at the first file of an earlier one nor at any other
    have heads : (g.deepChains depth).Pairwise fun c d => c.head? ≠ d.head? :=
      List.pairwise_map.mp ((hg.nodup_heads depth).sublist (hsub.map List.head?))
    have tails : (g.deepChains depth).Pairwise fun c d => ∀ p ∈ d.head?, p ∉ c.tail :=
      (pairwise_uncovered [] (g.candidates depth)).sublist (List.take_sublist _ _)
    refine (heads.and tails).imp fun {c d} ⟨hhead, htail⟩ p hp hin => ?_
    cases c with
    | nil => exact List.not_mem_nil hin
    | cons first rest =>
        rcases List.mem_cons.mp hin with rfl | hin
        · exact hhead (Option.mem_def.mp hp).symm
        · exact htail p hp hin

/-- **Soundness.**  Whatever the files, the policy and the depth, following ends, and what is told
are simple paths of the graph with more than `depth` imports: at most ten, the longest first, none
starting inside an earlier one. -/
theorem soundChains_deepChains (outlines : List Outline) (policy : SelfLoops) (depth : Nat) :
    let g := ofOutlines outlines policy
    g.SoundChains depth (g.deepChains depth) :=
  (ofOutlines_proper outlines policy).soundChains depth

end Graph

end ArchReview

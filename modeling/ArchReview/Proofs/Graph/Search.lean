import ArchReview.Proofs.Graph.Round

/-!
# Runs of the search for cycles

`Move` says what one step of the search can do: leave the last file of the trail, look at its next
successor and close a round (a new one, or one through files that are known to lie on a round), pass
a successor that was visited before, or enter one that was not.

`Run` moves on, without any bound, until the trail is empty; `Sweep` does so below every root of a
list.  The bounded search of the program is such a sweep (`sweep_foldl_searchFrom`): every move
takes one from the number of things still to do (`todo_move`), and there are never more of them
than nodes and links.

`Coherent` is what every move keeps (`Coherent.move`): the trail is a walk through distinct visited
files, each with a final part of its successors still to look at, and every cycle recorded was met
as a round of the trail.
-/

namespace ArchReview.Search

/-! ### Moves -/

/-- The files on a trail, the last one first. -/
def filesOf (trail : List Visit) : List Path := trail.map Visit.node

@[simp] theorem filesOf_nil : filesOf [] = [] := rfl

@[simp] theorem filesOf_cons (v : Visit) (rest : List Visit) :
    filesOf (v :: rest) = v.node :: filesOf rest := rfl

/-- What one move can do. -/
inductive Move (g : Graph) : Search → Search → Prop where
  | leave {visited node rest cycles} :
      Move g ⟨visited, ⟨node, []⟩ :: rest, cycles⟩ ⟨visited, rest, cycles⟩
  | known {visited node next more rest cycles}
      (ht : next ∈ filesOf (⟨node, more⟩ :: rest))
      (hk : ∃ c ∈ cycles, sameMembers (roundFrom (⟨node, more⟩ :: rest) next) c = true) :
      Move g ⟨visited, ⟨node, next :: more⟩ :: rest, cycles⟩
        ⟨visited, ⟨node, more⟩ :: rest, cycles⟩
  | found {visited node next more rest cycles}
      (ht : next ∈ filesOf (⟨node, more⟩ :: rest))
      (hn : ∀ c ∈ cycles, ¬ sameMembers (roundFrom (⟨node, more⟩ :: rest) next) c = true) :
      Move g ⟨visited, ⟨node, next :: more⟩ :: rest, cycles⟩
        ⟨visited, ⟨node, more⟩ :: rest,
          cycles ++ [rotateToSmallest (roundFrom (⟨node, more⟩ :: rest) next)]⟩
  | pass {visited node next more rest cycles}
      (ht : next ∉ filesOf (⟨node, more⟩ :: rest)) (hv : next ∈ visited) :
      Move g ⟨visited, ⟨node, next :: more⟩ :: rest, cycles⟩
        ⟨visited, ⟨node, more⟩ :: rest, cycles⟩
  | enter {visited node next more rest cycles} (hv : next ∉ visited) :
      Move g ⟨visited, ⟨node, next :: more⟩ :: rest, cycles⟩
        ⟨next :: visited, ⟨next, g.successors next⟩ :: ⟨node, more⟩ :: rest, cycles⟩

theorem any_node_eq {trail : List Visit} {p : Path} :
    (trail.any fun v => v.node == p) = true ↔ p ∈ filesOf trail := by
  simp [filesOf]

/-- **A step makes a move** while the trail is not empty. -/
theorem move_step (g : Graph) : ∀ {s : Search}, s.trail ≠ [] → Move g s (s.step g)
  | ⟨_, [], _⟩, h => absurd rfl h
  | ⟨_, ⟨_, []⟩ :: _, _⟩, _ => .leave
  | ⟨visited, ⟨node, next :: more⟩ :: rest, cycles⟩, _ => by
      simp only [step]
      by_cases ht : next ∈ filesOf (⟨node, more⟩ :: rest)
      · rw [if_pos (any_node_eq.mpr ht)]
        by_cases hk : ∃ c ∈ cycles, sameMembers (roundFrom (⟨node, more⟩ :: rest) next) c = true
        · rw [record, if_pos (List.any_eq_true.mpr hk)]
          exact .known ht hk
        · rw [record, if_neg fun h => hk (List.any_eq_true.mp h)]
          exact .found ht fun c hc h => hk ⟨c, hc, h⟩
      · rw [if_neg fun h => ht (any_node_eq.mp h)]
        by_cases hv : next ∈ visited
        · rw [if_pos (List.contains_iff_mem.mpr hv)]
          exact .pass ht hv
        · rw [if_neg fun h => hv (List.contains_iff_mem.mp h)]
          exact .enter hv

/-! ### Runs -/

/-- The search before its first move. -/
def start : Search := ⟨[], [], []⟩

/-- Moves are made until the trail is empty. -/
inductive Run (g : Graph) : Search → Search → Prop where
  | done {s : Search} (h : s.trail = []) : Run g s s
  | more {s t : Search} (h : s.trail ≠ []) (r : Run g (s.step g) t) : Run g s t

/-- A run below every root of a list that has not been visited when its turn comes. -/
inductive Sweep (g : Graph) : List Path → Search → Search → Prop where
  | done (s : Search) : Sweep g [] s s
  | skip {root : Path} {roots : List Path} {s t : Search} (h : root ∈ s.visited)
      (w : Sweep g roots s t) : Sweep g (root :: roots) s t
  | search {root : Path} {roots : List Path} {s m t : Search} (h : root ∉ s.visited)
      (r : Run g (s.enter g root) m) (w : Sweep g roots m t) : Sweep g (root :: roots) s t

theorem Run.trail_eq_nil {g : Graph} {s t : Search} (r : Run g s t) : t.trail = [] := by
  induction r with
  | done h => exact h
  | more _ _ ih => exact ih

/-- What every move keeps, a run keeps. -/
theorem Run.keeps {g : Graph} {P : Search → Prop} (hm : ∀ {s t}, Move g s t → P s → P t)
    {s t : Search} (r : Run g s t) (h : P s) : P t := by
  induction r with
  | done _ => exact h
  | more hs _ ih => exact ih (hm (move_step g hs) h)

/-- What every move and every new root keep, a sweep keeps. -/
theorem Sweep.keeps {g : Graph} {P : Search → Prop} (hm : ∀ {s t}, Move g s t → P s → P t)
    {roots : List Path}
    (he : ∀ {s root}, root ∈ roots → s.trail = [] → root ∉ s.visited → P s → P (s.enter g root))
    {s t : Search} (w : Sweep g roots s t) (hs : s.trail = []) (h : P s) :
    P t ∧ t.trail = [] := by
  induction w with
  | done _ => exact ⟨h, hs⟩
  | skip _ _ ih => exact ih (fun hr => he (List.mem_cons_of_mem _ hr)) hs h
  | search hv r _ ih =>
      have hm' := r.keeps hm (he List.mem_cons_self hs hv h)
      exact ih (fun hr => he (List.mem_cons_of_mem _ hr)) r.trail_eq_nil hm'

/-! ### Coherent searches -/

/-- A cycle was met as a round through files in the order of their visits, each importing the
next and the last the first. -/
def Met (g : Graph) (visited cycle : List Path) : Prop :=
  ∃ round, round ≠ [] ∧ round.Sublist visited.reverse ∧
    (∀ e ∈ legs round, e.2 ∈ g.successors e.1) ∧ cycle = rotateToSmallest round

/-- What holds throughout a search. -/
structure Coherent (g : Graph) (s : Search) : Prop where
  nodup : s.visited.Nodup
  visited_mem : ∀ p ∈ s.visited, p ∈ g.nodes
  trail_sublist : (filesOf s.trail).Sublist s.visited
  pending : ∀ v ∈ s.trail, v.pending <:+ g.successors v.node
  /-- Every file but the first of the trail is the successor looked at last of the one before. -/
  linked : s.trail.IsChain fun v w => (v.node :: w.pending) <:+ g.successors w.node
  met : ∀ c ∈ s.cycles, Met g s.visited c
  apart : s.cycles.Pairwise fun c d => ¬ ∀ p, p ∈ c ↔ p ∈ d

theorem Met.cons {g : Graph} {visited cycle : List Path} (h : Met g visited cycle) (p : Path) :
    Met g (p :: visited) cycle := by
  obtain ⟨round, hne, hs, he, rfl⟩ := h
  refine ⟨round, hne, ?_, he, rfl⟩
  rw [List.reverse_cons]
  exact hs.trans (List.sublist_append_left _ _)

namespace Coherent

theorem start (g : Graph) : Coherent g start where
  nodup := List.nodup_nil
  visited_mem := by simp [Search.start]
  trail_sublist := List.Sublist.refl _
  pending := by simp [Search.start]
  linked := List.isChain_nil
  met := by simp [Search.start]
  apart := List.Pairwise.nil

theorem trail_nodup {g : Graph} {s : Search} (h : Coherent g s) : (filesOf s.trail).Nodup :=
  h.nodup.sublist h.trail_sublist

theorem root {g : Graph} {s : Search} (h : Coherent g s) {p : Path} (hp : p ∈ g.nodes)
    (hs : s.trail = []) (hv : p ∉ s.visited) : Coherent g (s.enter g p) where
  nodup := List.nodup_cons.mpr ⟨hv, h.nodup⟩
  visited_mem q hq := (List.mem_cons.mp hq).elim (fun e => e ▸ hp) (h.visited_mem q)
  trail_sublist := by
    rw [enter, hs]
    exact (List.nil_sublist s.visited).cons_cons p
  pending v hv := by
    rw [enter, hs] at hv
    rw [List.mem_singleton.mp hv]
  linked := by
    rw [enter, hs]
    exact List.isChain_singleton _
  met c hc := (h.met c hc).cons p
  apart := h.apart

section
variable {g : Graph} {visited : List Path} {node next : Path} {more : List Path}
  {rest : List Visit} {cycles : List (List Path)}

theorem leave (h : Coherent g ⟨visited, ⟨node, []⟩ :: rest, cycles⟩) :
    Coherent g ⟨visited, rest, cycles⟩ where
  nodup := h.nodup
  visited_mem := h.visited_mem
  trail_sublist := (List.sublist_cons_self _ _).trans h.trail_sublist
  pending v hv := h.pending v (List.mem_cons_of_mem _ hv)
  linked := h.linked.tail
  met := h.met
  apart := h.apart

/-- Looking at the next successor of the last file. -/
theorem advance (h : Coherent g ⟨visited, ⟨node, next :: more⟩ :: rest, cycles⟩) :
    Coherent g ⟨visited, ⟨node, more⟩ :: rest, cycles⟩ where
  nodup := h.nodup
  visited_mem := h.visited_mem
  trail_sublist := h.trail_sublist
  pending v hv := by
    rcases List.mem_cons.mp hv with rfl | hv
    · exact (List.suffix_cons next more).trans (h.pending _ List.mem_cons_self)
    · exact h.pending v (List.mem_cons_of_mem _ hv)
  linked := List.IsChain.imp_head (x := (⟨node, next :: more⟩ : Visit)) (y := ⟨node, more⟩)
    (fun hw => hw) h.linked
  met := h.met
  apart := h.apart

theorem next_mem_successors (h : Coherent g ⟨visited, ⟨node, next :: more⟩ :: rest, cycles⟩) :
    next ∈ g.successors node :=
  (h.pending _ List.mem_cons_self).subset List.mem_cons_self

/-- Entering a successor. -/
theorem descend (hg : g.Proper) (h : Coherent g ⟨visited, ⟨node, next :: more⟩ :: rest, cycles⟩)
    (hv : next ∉ visited) :
    Coherent g
      ⟨next :: visited, ⟨next, g.successors next⟩ :: ⟨node, more⟩ :: rest, cycles⟩ where
  nodup := List.nodup_cons.mpr ⟨hv, h.nodup⟩
  visited_mem q hq := (List.mem_cons.mp hq).elim
    (fun e => e ▸ hg.mem_of_mem_successors h.next_mem_successors) (h.visited_mem q)
  trail_sublist := h.trail_sublist.cons_cons next
  pending v hv := by
    rcases List.mem_cons.mp hv with rfl | hv
    · exact List.suffix_rfl
    · exact h.advance.pending v hv
  linked := List.isChain_cons_cons.mpr ⟨h.pending _ List.mem_cons_self, h.advance.linked⟩
  met c hc := (h.met c hc).cons next
  apart := h.apart

end

end Coherent

/-! ### The round that a successor on the trail closes -/

theorem roundFrom_append {v : Visit} (post : List Visit) :
    ∀ {pre : List Visit}, v.node ∉ filesOf pre →
      roundFrom (pre ++ v :: post) v.node = v.node :: (filesOf pre).reverse
  | [], _ => by simp [roundFrom]
  | w :: pre, h => by
      obtain ⟨hw, hpre⟩ := not_or.mp (fun e => h (List.mem_cons.mpr e))
      have ih := roundFrom_append post hpre
      rw [List.cons_append, roundFrom, if_neg (by simpa using fun e => hw e.symm), ih]
      simp

section
variable {g : Graph} {visited : List Path} {node next : Path} {more : List Path}
  {rest : List Visit} {cycles : List (List Path)}

/-- The round starts at the successor, and the last file of the trail closes it. -/
theorem Coherent.roundFrom_eq (h : Coherent g ⟨visited, ⟨node, next :: more⟩ :: rest, cycles⟩)
    (ht : next ∈ filesOf (⟨node, more⟩ :: rest)) :
    ∃ pre, (pre ++ [next]) <+: filesOf (⟨node, more⟩ :: rest) ∧
      roundFrom (⟨node, more⟩ :: rest) next = next :: pre.reverse := by
  obtain ⟨v, hv, rfl⟩ := List.mem_map.mp ht
  obtain ⟨pre, post, e⟩ := List.append_of_mem hv
  have hpre : v.node ∉ filesOf pre := by
    have hn := h.advance.trail_nodup
    simp only [e, filesOf, List.map_append, List.map_cons] at hn
    exact fun hm => (List.nodup_append.mp hn).2.2 _ hm _ List.mem_cons_self rfl
  refine ⟨filesOf pre, ?_, ?_⟩
  · rw [e]
    exact ⟨filesOf post, by simp [filesOf]⟩
  · rw [e, roundFrom_append post hpre]

/-- Each file of the trail imports the one that comes after it. -/
theorem Coherent.isChain_filesOf {s : Search} (h : Coherent g s) :
    (filesOf s.trail).IsChain fun p q => p ∈ g.successors q := by
  rw [filesOf, List.isChain_map]
  exact h.linked.imp fun _ _ hs => hs.subset List.mem_cons_self

/-- The files of a round closed on the trail were visited in the order of the round. -/
theorem Coherent.roundFrom_sublist
    (h : Coherent g ⟨visited, ⟨node, next :: more⟩ :: rest, cycles⟩)
    (ht : next ∈ filesOf (⟨node, more⟩ :: rest)) :
    (roundFrom (⟨node, more⟩ :: rest) next).Sublist visited.reverse := by
  obtain ⟨pre, hpre, e⟩ := h.roundFrom_eq ht
  have hs : (pre ++ [next]).Sublist visited := hpre.sublist.trans h.trail_sublist
  rw [e]
  simpa using hs.reverse

/-- The round is closed by the step from the last file of the trail to the successor. -/
theorem Coherent.closing_mem_legs_roundFrom
    (h : Coherent g ⟨visited, ⟨node, next :: more⟩ :: rest, cycles⟩)
    (ht : next ∈ filesOf (⟨node, more⟩ :: rest)) :
    (node, next) ∈ legs (roundFrom (⟨node, more⟩ :: rest) next) := by
  obtain ⟨pre, hpre, e⟩ := h.roundFrom_eq ht
  rw [e]
  obtain ⟨post, hpost⟩ := hpre
  cases pre with
  | nil =>
      obtain rfl : next = node := (List.cons.inj hpost).1
      simp [legs]
  | cons p pre =>
      obtain rfl : p = node := (List.cons.inj hpost).1
      rw [List.reverse_cons]
      exact closing_mem_legs next pre.reverse p

/-- **A round closed on the trail is met.** -/
theorem Coherent.met_roundFrom
    (h : Coherent g ⟨visited, ⟨node, next :: more⟩ :: rest, cycles⟩)
    (ht : next ∈ filesOf (⟨node, more⟩ :: rest)) :
    Met g visited (rotateToSmallest (roundFrom (⟨node, more⟩ :: rest) next)) := by
  obtain ⟨pre, hpre, e⟩ := h.roundFrom_eq ht
  refine ⟨_, ?_, h.roundFrom_sublist ht, ?_, rfl⟩
  · rw [e]
    exact List.cons_ne_nil _ _
  · rw [e]
    refine forall_legs_of_isChain (R := fun p q => q ∈ g.successors p) ?_
    -- read backwards, the round is a piece of the trail below a further visit of `next`
    have hc : (next :: (pre ++ [next])).IsChain fun p q => p ∈ g.successors q := by
      have hpiece := List.IsChain.prefix h.advance.isChain_filesOf hpre
      refine hpiece.cons fun q hq => ?_
      have hq : q = node := by
        obtain ⟨post, hpost⟩ := hpre
        have hh := congrArg List.head? hpost
        rw [List.head?_append, Option.mem_def.mp hq] at hh
        exact Option.some.inj hh
      rw [hq]
      exact h.next_mem_successors
    have hr := List.isChain_reverse.mpr hc
    simpa using hr

/-- Recording a round that is not known keeps a search coherent. -/
theorem Coherent.found (h : Coherent g ⟨visited, ⟨node, next :: more⟩ :: rest, cycles⟩)
    (ht : next ∈ filesOf (⟨node, more⟩ :: rest))
    (hn : ∀ c ∈ cycles, ¬ sameMembers (roundFrom (⟨node, more⟩ :: rest) next) c = true) :
    Coherent g ⟨visited, ⟨node, more⟩ :: rest,
      cycles ++ [rotateToSmallest (roundFrom (⟨node, more⟩ :: rest) next)]⟩ :=
  { h.advance with
    met := fun c hc => by
      rcases List.mem_append.mp hc with hc | hc
      · exact h.met c hc
      · rw [List.mem_singleton.mp hc]
        exact h.met_roundFrom ht
    apart := by
      refine List.pairwise_append.mpr ⟨h.apart, List.pairwise_singleton _ _, fun c hc d hd he => ?_⟩
      rw [List.mem_singleton.mp hd] at he
      refine hn c hc (sameMembers_iff.mpr fun p => ?_)
      rw [he p]
      exact (rotateToSmallest_isRotated _).mem_iff.symm }

end

/-- **Every move keeps a search coherent.** -/
theorem Coherent.move {g : Graph} (hg : g.Proper) {s t : Search} (m : Move g s t)
    (h : Coherent g s) : Coherent g t := by
  cases m with
  | leave => exact h.leave
  | known _ _ => exact h.advance
  | found ht hn => exact h.found ht hn
  | pass _ _ => exact h.advance
  | enter hv => exact h.descend hg hv

/-! ### The number of moves -/

/-- A file counts with its successors, until it is visited and while it is on the trail. -/
def todo (g : Graph) (s : Search) : Nat :=
  ((g.nodes.filter fun p => p ∉ s.visited).map fun p => 1 + (g.successors p).length).sum +
    (s.trail.map fun v => 1 + v.pending.length).sum

theorem sum_unvisited {nodes visited : List Path} (hn : nodes.Nodup) {p : Path} (hp : p ∈ nodes)
    (hv : p ∉ visited) (f : Path → Nat) :
    ((nodes.filter fun q => q ∉ visited).map f).sum =
      f p + ((nodes.filter fun q => q ∉ p :: visited).map f).sum := by
  have hperm : (nodes.filter fun q => q ∉ visited).Perm
      (p :: nodes.filter fun q => q ∉ p :: visited) := by
    refine (List.perm_ext_iff_of_nodup (hn.filter _)
      (List.nodup_cons.mpr ⟨by simp, hn.filter _⟩)).mpr fun q => ?_
    by_cases e : q = p
    · subst e
      simp [hp, hv]
    · simp [e]
  rw [(hperm.map f).sum_eq, List.map_cons, List.sum_cons]

/-- **Every move takes one from what is to do.** -/
theorem todo_move {g : Graph} (hg : g.Proper) {s t : Search} (m : Move g s t)
    (h : Coherent g s) : todo g t + 1 = todo g s := by
  cases m with
  | leave => simp [todo]; omega
  | known _ _ => simp [todo]; omega
  | found _ _ => simp [todo]; omega
  | pass _ _ => simp [todo]; omega
  | @enter visited node next more rest cycles hv =>
      -- the new file moves from the unvisited ones to the trail, with all its successors
      have hp : next ∈ g.nodes := hg.mem_of_mem_successors h.next_mem_successors
      have e := sum_unvisited hg.ascending.nodup hp hv fun p => 1 + (g.successors p).length
      simp only [todo, List.map_cons, List.sum_cons, List.length_cons] at *
      omega

theorem todo_enter_le {g : Graph} (hg : g.Proper) {s : Search} (hs : s.trail = []) {root : Path}
    (hr : root ∈ g.nodes) (hv : root ∉ s.visited) :
    todo g (s.enter g root) ≤ g.nodes.length + g.links.length := by
  have e := sum_unvisited hg.ascending.nodup hr hv fun p => 1 + (g.successors p).length
  have unvisited : ((g.nodes.filter fun p => p ∉ s.visited).map
      fun p => 1 + (g.successors p).length).sum ≤
        (g.nodes.map fun p => 1 + (g.successors p).length).sum :=
    (List.filter_sublist.map _).sum_le_sum fun _ _ => Nat.zero_le _
  have all : (g.nodes.map fun p => 1 + (g.successors p).length).sum =
      g.nodes.length + (g.nodes.map fun p => (g.successors p).length).sum := by
    rw [List.sum_map_add]
    simp
  have edges := hg.sum_successors_le
  simp only [todo, enter, hs, List.map_cons, List.map_nil, List.sum_cons, List.sum_nil]
  omega

/-! ### The bounded search -/

/-- A number of steps that covers what is to do makes a run. -/
theorem run_steps {g : Graph} (hg : g.Proper) :
    ∀ (n : Nat) {s : Search}, Coherent g s → todo g s ≤ n → Run g s (steps g n s)
  | 0, s, _, hn => by
      refine .done (List.eq_nil_iff_forall_not_mem.mpr fun v hv => ?_)
      have := List.le_sum_of_mem (List.mem_map_of_mem (f := fun v => 1 + v.pending.length) hv)
      rw [todo] at hn
      omega
  | n + 1, s, h, hn => by
      rw [steps]
      by_cases hs : s.trail = []
      · rw [if_pos (List.isEmpty_iff.mpr hs)]
        exact .done hs
      · have hm := move_step g hs
        have ht := todo_move hg hm h
        rw [if_neg fun e => hs (List.isEmpty_iff.mp e)]
        exact .more hs (run_steps hg n (h.move hg hm) (by omega))

/-- **The bounded search below one root is a run.** -/
theorem run_searchFrom {g : Graph} (hg : g.Proper) {s : Search} (h : Coherent g s)
    (hs : s.trail = []) {root : Path} (hr : root ∈ g.nodes) (hv : root ∉ s.visited) :
    Run g (s.enter g root) (searchFrom g s root) := by
  rw [searchFrom, if_neg fun e => hv (List.contains_iff_mem.mp e)]
  refine run_steps hg _ (h.root hr hs hv) ?_
  have := todo_enter_le hg hs hr hv
  omega

/-- **The bounded search below some roots is a sweep.** -/
theorem sweep_foldl_searchFrom {g : Graph} (hg : g.Proper) :
    ∀ (roots : List Path) {s : Search}, (∀ r ∈ roots, r ∈ g.nodes) → Coherent g s →
      s.trail = [] → Sweep g roots s (roots.foldl (searchFrom g) s)
  | [], s, _, _, _ => .done s
  | root :: roots, s, hr, h, hs => by
      have hroots : ∀ r ∈ roots, r ∈ g.nodes := fun r hr' => hr r (List.mem_cons_of_mem _ hr')
      rw [List.foldl_cons]
      by_cases hv : root ∈ s.visited
      · have e : searchFrom g s root = s := by
          rw [searchFrom, if_pos (List.contains_iff_mem.mpr hv)]
        rw [e]
        exact .skip hv (sweep_foldl_searchFrom hg roots hroots h hs)
      · have hroot := hr root List.mem_cons_self
        have r := run_searchFrom hg h hs hroot hv
        have hm := r.keeps (Coherent.move hg) (h.root hroot hs hv)
        exact .search hv r (sweep_foldl_searchFrom hg roots hroots hm r.trail_eq_nil)

/-! ### What a sweep visits -/

theorem Move.visited_subset {g : Graph} {s t : Search} (m : Move g s t) :
    s.visited ⊆ t.visited := by
  cases m with
  | enter _ => exact List.subset_cons_self _ _
  | _ => exact List.Subset.refl _

theorem Run.visited_subset {g : Graph} {s t : Search} (r : Run g s t) : s.visited ⊆ t.visited :=
  r.keeps (P := fun t => s.visited ⊆ t.visited) (fun m h => List.Subset.trans h m.visited_subset)
    (List.Subset.refl _)

/-- A sweep visits its roots. -/
theorem Sweep.visited {g : Graph} {roots : List Path} {s t : Search} (w : Sweep g roots s t) :
    s.visited ⊆ t.visited ∧ ∀ r ∈ roots, r ∈ t.visited := by
  induction w with
  | done s => exact ⟨List.Subset.refl _, fun _ h => absurd h List.not_mem_nil⟩
  | skip h _ ih =>
      refine ⟨ih.1, fun r hr => ?_⟩
      rcases List.mem_cons.mp hr with rfl | hr
      · exact ih.1 h
      · exact ih.2 r hr
  | search h r _ ih =>
      have hsub := List.Subset.trans r.visited_subset ih.1
      refine ⟨fun p hp => hsub (List.mem_cons_of_mem _ hp), fun q hq => ?_⟩
      rcases List.mem_cons.mp hq with rfl | hq
      · exact hsub List.mem_cons_self
      · exact ih.2 q hq

end ArchReview.Search

import ArchReview.Proofs.Graph.Search

/-!
# Searches below a first root

A search that starts at `u` has visited `u` from its first move on, and `u` is at the bottom of
every trail it is on (`Below`).  The successors of a visited file are visited too, but for those
that a file of the trail has yet to look at (`Seen`).  Whatever is kept below a first root holds at
the end of the sweep (`Sweep.keeps_below`).
-/

namespace ArchReview.Search

/-! ### Successors of visited files -/

/-- A successor of a visited file is visited too, or still to be looked at. -/
def Seen (g : Graph) (s : Search) : Prop :=
  ∀ p ∈ s.visited, ∀ q ∈ g.successors p,
    q ∈ s.visited ∨ ∃ v ∈ s.trail, v.node = p ∧ q ∈ v.pending

section
variable {g : Graph} {visited : List Path} {node next : Path} {more : List Path}
  {rest : List Visit} {cycles : List (List Path)}

theorem Seen.advance (h : Seen g ⟨visited, ⟨node, next :: more⟩ :: rest, cycles⟩)
    (hv : next ∈ visited) (cycles' : List (List Path)) :
    Seen g ⟨visited, ⟨node, more⟩ :: rest, cycles'⟩ := by
  intro p hp q hq
  rcases h p hp q hq with h | ⟨v, hvt, rfl, hpend⟩
  · exact Or.inl h
  · rcases List.mem_cons.mp hvt with rfl | hvt
    · rcases List.mem_cons.mp hpend with rfl | hpend
      · exact Or.inl hv
      · exact Or.inr ⟨_, List.mem_cons_self, rfl, hpend⟩
    · exact Or.inr ⟨v, List.mem_cons_of_mem _ hvt, rfl, hpend⟩

theorem Seen.enter (h : Seen g ⟨visited, ⟨node, next :: more⟩ :: rest, cycles⟩) :
    Seen g ⟨next :: visited, ⟨next, g.successors next⟩ :: ⟨node, more⟩ :: rest, cycles⟩ := by
  intro p hp q hq
  rcases List.mem_cons.mp hp with rfl | hp
  · exact Or.inr ⟨_, List.mem_cons_self, rfl, hq⟩
  · rcases h p hp q hq with h | ⟨v, hvt, rfl, hpend⟩
    · exact Or.inl (List.mem_cons_of_mem _ h)
    · rcases List.mem_cons.mp hvt with rfl | hvt
      · rcases List.mem_cons.mp hpend with rfl | hpend
        · exact Or.inl List.mem_cons_self
        · exact Or.inr ⟨_, List.mem_cons_of_mem _ List.mem_cons_self, rfl, hpend⟩
      · exact Or.inr ⟨v, List.mem_cons_of_mem _ (List.mem_cons_of_mem _ hvt), rfl, hpend⟩

end

theorem Seen.move {g : Graph} {s t : Search} (m : Move g s t) (hs : Coherent g s)
    (h : Seen g s) : Seen g t := by
  cases m with
  | leave =>
      intro p hp q hq
      rcases h p hp q hq with h | ⟨v, hv, rfl, hpend⟩
      · exact Or.inl h
      · rcases List.mem_cons.mp hv with rfl | hv
        · cases hpend
        · exact Or.inr ⟨v, hv, rfl, hpend⟩
  | known ht _ => exact h.advance (hs.trail_sublist.subset ht) _
  | found ht _ => exact h.advance (hs.trail_sublist.subset ht) _
  | pass _ hv => exact h.advance hv _
  | enter _ => exact h.enter

theorem Seen.root {g : Graph} {s : Search} (h : Seen g s) (hs : s.trail = []) (p : Path) :
    Seen g (s.enter g p) := by
  intro q hq r hr
  rcases List.mem_cons.mp hq with rfl | hq
  · exact Or.inr ⟨_, List.mem_cons_self, rfl, hr⟩
  · rcases h q hq r hr with h | ⟨v, hv, -⟩
    · exact Or.inl (List.mem_cons_of_mem _ h)
    · rw [hs] at hv
      cases hv

/-! ### Searches below a first root -/

/-- A search whose first root was `u`. -/
structure Below (g : Graph) (u : Path) (s : Search) : Prop where
  coherent : Coherent g s
  seen : Seen g s
  visited : u ∈ s.visited
  /-- On a trail, `u` is the first file or none. -/
  bottom : u ∉ (filesOf s.trail).dropLast

theorem Below.start {g : Graph} {u : Path} (hu : u ∈ g.nodes) :
    Below g u (Search.start.enter g u) where
  coherent := (Coherent.start g).root hu rfl List.not_mem_nil
  seen := Seen.root (fun _ hp => absurd hp List.not_mem_nil) rfl u
  visited := List.mem_cons_self
  bottom := List.not_mem_nil

theorem Below.move {g : Graph} (hg : g.Proper) {u : Path} {s t : Search} (m : Move g s t)
    (h : Below g u s) : Below g u t := by
  refine ⟨h.coherent.move hg m, h.seen.move m h.coherent, m.visited_subset h.visited, ?_⟩
  cases m with
  | @leave visited node rest cycles =>
      intro hu
      have hne : filesOf rest ≠ [] := by
        rintro e
        rw [e] at hu
        cases hu
      refine h.bottom ?_
      rw [filesOf_cons, List.dropLast_cons_of_ne_nil hne]
      exact List.mem_cons_of_mem _ hu
  | known _ _ => exact h.bottom
  | found _ _ => exact h.bottom
  | pass _ _ => exact h.bottom
  | enter hv =>
      intro hu
      rcases List.mem_cons.mp hu with rfl | hu
      · exact hv h.visited
      · exact h.bottom hu

theorem Below.root {g : Graph} {u : Path} {s : Search} (h : Below g u s) {p : Path}
    (hp : p ∈ g.nodes) (hs : s.trail = []) (hv : p ∉ s.visited) : Below g u (s.enter g p) where
  coherent := h.coherent.root hp hs hv
  seen := h.seen.root hs p
  visited := List.mem_cons_of_mem _ h.visited
  bottom := by
    rw [enter, hs]
    exact List.not_mem_nil

/-- A piece of the trail from its last file down to `u` is the whole trail. -/
theorem Below.files_eq {g : Graph} {u : Path} {s : Search} (h : Below g u s) {pre : List Path}
    {x : Path} (hp : (pre ++ [x]) <+: filesOf s.trail) (hu : u ∈ pre ++ [x]) :
    filesOf s.trail = pre ++ [x] ∧ x = u ∧ u ∉ pre := by
  obtain ⟨post, hpost⟩ := hp
  have hbottom := h.bottom
  have hnil : post = [] := by
    by_contra hne
    rw [← hpost, List.dropLast_append_of_ne_nil hne] at hbottom
    exact hbottom (List.mem_append_left _ hu)
  rw [hnil, List.append_nil] at hpost
  rw [← hpost, List.dropLast_concat] at hbottom
  refine ⟨hpost.symm, ?_, hbottom⟩
  rcases List.mem_append.mp hu with hu | hu
  · exact absurd hu hbottom
  · exact (List.mem_singleton.mp hu).symm

/-- When `u` is on the trail, it is the only file there, or another one stands directly above it. -/
theorem Below.trail_eq {g : Graph} {u : Path} {s : Search} (h : Below g u s) {x : Visit}
    (hx : x ∈ s.trail) (hu : x.node = u) :
    s.trail = [x] ∨ ∃ pre y, s.trail = pre ++ [y, x] := by
  obtain ⟨pre, post, e⟩ := List.append_of_mem hx
  have hpiece : (filesOf pre ++ [u]) <+: filesOf s.trail := by
    rw [e, ← hu]
    exact ⟨filesOf post, by simp [filesOf]⟩
  have hfiles := (h.files_eq hpiece (List.mem_append_right _ List.mem_cons_self)).1
  obtain rfl : post = [] := by
    have hlen := congrArg List.length hfiles
    simp only [e, filesOf, List.map_append, List.map_cons, List.length_append, List.length_cons,
      List.length_map, List.length_nil] at hlen
    exact List.length_eq_zero_iff.mp (by omega)
  rcases List.eq_nil_or_concat pre with rfl | ⟨pre, y, rfl⟩
  · exact Or.inl e
  · exact Or.inr ⟨pre, y, by rw [e]; simp⟩

/-- What holds below the first root, and is kept by every move and every new root, holds at the
end. -/
theorem Sweep.keeps_below {g : Graph} (hg : g.Proper) {u : Path} {roots : List Path}
    (hr : ∀ r ∈ u :: roots, r ∈ g.nodes) {P : Search → Prop} (h₀ : P (Search.start.enter g u))
    (hm : ∀ {s t}, Move g s t → Below g u s → P s → P t)
    (he : ∀ {s p}, s.trail = [] → p ∉ s.visited → Below g u s → P s → P (s.enter g p))
    {t : Search} (w : Sweep g (u :: roots) Search.start t) : P t ∧ t.trail = [] := by
  cases w with
  | skip h _ => cases h  -- nothing is visited before the first root
  | search _ r w =>
      have hstart := Below.start (hr u List.mem_cons_self)
      have step : ∀ {s t}, Move g s t → Below g u s ∧ P s → Below g u t ∧ P t :=
        fun m h => ⟨h.1.move hg m, hm m h.1 h.2⟩
      have hend := w.keeps step
        (fun hr' hs hv h =>
          ⟨h.1.root (hr _ (List.mem_cons_of_mem _ hr')) hs hv, he hs hv h.1 h.2⟩)
        r.trail_eq_nil (r.keeps step ⟨hstart, h₀⟩)
      exact ⟨hend.1.2, hend.2⟩

end ArchReview.Search

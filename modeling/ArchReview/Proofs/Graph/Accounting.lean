import ArchReview.Proofs.Graph.Alike

/-!
# Every import is accounted for

A graph is built from *sites*: the imports of the files that could be read (`importSites`).  What
one site may add is a `Booking`: if its import leads nowhere, one unresolved import and no link;
else one link to each file that it leads to, and nothing unresolved.  A `Ledger` holds the bookings
of several sites one after the other, so that no site is left out and none is booked twice.

**Accounting** (`ofOutlines_accounts`).  The links and the unresolved imports of a graph are the
ledger of its sites.  Its nodes are the normal paths of all files, also of those that could not be
read, and no import leads anywhere else.
-/

namespace ArchReview

/-! ### Sites and bookings -/

/-- The imports of the files that could be read, each with its file. -/
def importSites (outlines : List Outline) : List (Outline × Import) :=
  (outlines.filter Outline.succeeded).flatMap fun o => o.imports.map fun i => (o, i)

theorem mem_importSites {outlines : List Outline} {o : Outline} {i : Import} :
    (o, i) ∈ importSites outlines ↔ o ∈ outlines ∧ o.succeeded = true ∧ i ∈ o.imports := by
  simp [importSites, and_assoc]

/-- What an import of a file may add to a graph. -/
inductive Booking (r : Resolver) (policy : SelfLoops) (o : Outline) (i : Import) :
    List Link → List UnresolvedImport → Prop where
  /-- It leads nowhere. -/
  | unresolved (nowhere : r.targets o.language i = []) :
      Booking r policy o i []
        [⟨o.path.normalize, i.modulePath, i.line, i.unresolvedReason o.language⟩]
  /-- It leads to some files: one link to each, the file itself left out if loops are suppressed. -/
  | linked {links : List Link} (somewhere : r.targets o.language i ≠ [])
      (distinct : (links.map Link.target).Nodup)
      (targets : ∀ t, t ∈ links.map Link.target ↔
        t ∈ r.targets o.language i ∧ ¬ (policy = .suppress ∧ t = o.path.normalize))
      (origin : ∀ l ∈ links,
        l.source = o.path.normalize ∧ l.modulePath = i.modulePath ∧ l.line = i.line) :
      Booking r policy o i links []

/-- The bookings of some sites, one after the other. -/
inductive Ledger (r : Resolver) (policy : SelfLoops) :
    List (Outline × Import) → List Link → List UnresolvedImport → Prop where
  | nil : Ledger r policy [] [] []
  | cons {o : Outline} {i : Import} {sites : List (Outline × Import)} {new links : List Link}
      {missing unresolved : List UnresolvedImport} (booking : Booking r policy o i new missing)
      (rest : Ledger r policy sites links unresolved) :
      Ledger r policy ((o, i) :: sites) (new ++ links) (missing ++ unresolved)

/-! ### The booking of one import -/

/-- The files that an import leads to are distinct. -/
theorem Resolver.nodup_targets (r : Resolver) (language : Language) (i : Import) :
    (r.targets language i).Nodup :=
  (ascending_pathSet _).nodup

/-- What an import leaves in a graph is a booking for it. -/
theorem Import.booking_trace (r : Resolver) (policy : SelfLoops) (o : Outline) (i : Import) :
    Booking r policy o i (i.trace r policy o.path.normalize o.language).1
      (i.trace r policy o.path.normalize o.language).2 := by
  unfold Import.trace
  split
  · rename_i nowhere
    exact .unresolved nowhere
  · rename_i somewhere
    have kept : ((r.targets o.language i).filter
        fun t => !(policy == .suppress && t == o.path.normalize)).map
          (Link.target ∘ fun t => ⟨o.path.normalize, t, i.modulePath, i.line⟩) =
        (r.targets o.language i).filter
          fun t => !(policy == .suppress && t == o.path.normalize) := List.map_id _
    refine .linked somewhere ?_ (fun t => ?_) fun l hl => ?_
    · rw [List.map_map, kept]
      exact (r.nodup_targets o.language i).filter _
    · rw [List.map_map, kept]
      simp [imp_iff_not_or]
    · obtain ⟨t, -, rfl⟩ := List.mem_map.mp hl
      exact ⟨rfl, rfl, rfl⟩

/-! ### The ledger of a graph -/

/-- Booking sites one by one gives a ledger of them. -/
theorem ledger_flatMap (r : Resolver) (policy : SelfLoops) (sites : List (Outline × Import)) :
    Ledger r policy sites
      (sites.flatMap fun s => (s.2.trace r policy s.1.path.normalize s.1.language).1)
      (sites.flatMap fun s => (s.2.trace r policy s.1.path.normalize s.1.language).2) := by
  induction sites with
  | nil => exact .nil
  | cons s sites ih =>
      rw [List.flatMap_cons, List.flatMap_cons]
      exact .cons (s.2.booking_trace r policy s.1) ih

/-- A link in a ledger leads where the import of one of its sites leads. -/
theorem Ledger.exists_site {r : Resolver} {policy : SelfLoops} {sites : List (Outline × Import)}
    {links : List Link} {unresolved : List UnresolvedImport}
    (h : Ledger r policy sites links unresolved) {l : Link} (hl : l ∈ links) :
    ∃ s ∈ sites, l.source = s.1.path.normalize ∧ l.target ∈ r.targets s.1.language s.2 := by
  induction h with
  | nil => cases hl
  | @cons o i sites new links missing unresolved booking _ ih =>
      rcases List.mem_append.mp hl with hl | hl
      · cases booking with
        | unresolved => cases hl
        | linked _ _ targets origin =>
            refine ⟨(o, i), List.mem_cons_self, (origin l hl).1, ?_⟩
            exact ((targets l.target).mp (List.mem_map_of_mem hl)).1
      · obtain ⟨s, hs, h⟩ := ih hl
        exact ⟨s, List.mem_cons_of_mem _ hs, h⟩

namespace Graph

variable (outlines : List Outline) (policy : SelfLoops)

theorem ledger_ofOutlines :
    Ledger (Resolver.ofFiles (ofOutlines outlines policy).nodes) policy (importSites outlines)
      (ofOutlines outlines policy).links (ofOutlines outlines policy).unresolved := by
  have h := ledger_flatMap (Resolver.ofFiles (ofOutlines outlines policy).nodes) policy
    (importSites outlines)
  rw [links_ofOutlines, unresolved_ofOutlines]
  simpa only [importSites, List.flatMap_assoc, List.flatMap_map] using h

/-- The nodes are the normal paths of all files. -/
theorem mem_nodes_ofOutlines {p : Path} :
    p ∈ (ofOutlines outlines policy).nodes ↔ ∃ o ∈ outlines, o.path.normalize = p := by
  have hs : Spelled (outlines.map fun o => o.path.normalize) := spelled_of_normal fun q hq => by
    obtain ⟨o, -, rfl⟩ := List.mem_map.mp hq
    exact ⟨o.path, rfl⟩
  change p ∈ pathSet (outlines.map fun o => o.path.normalize) ↔ _
  rw [mem_pathSet hs, List.mem_map]

/-- The number of modules outside the project is the number of distinct names of them. -/
theorem externalFanOut_eq_card (g : Graph) (p : Path) :
    g.externalFanOut p = ((g.unresolved.filter fun u => u.source.same p).map
      UnresolvedImport.modulePath).toFinset.card :=
  Text.length_nameSet _

/-- All that a graph of some outlines holds, and where it comes from. -/
structure Accounts (g : Graph) (outlines : List Outline) (policy : SelfLoops) : Prop where
  /-- The nodes are distinct. -/
  nodup : g.nodes.Nodup
  /-- They are the normal paths of all files. -/
  mem_nodes : ∀ p, p ∈ g.nodes ↔ ∃ o ∈ outlines, o.path.normalize = p
  /-- No import leads to anything else, whatever it is and wherever it stands. -/
  targets_mem : ∀ language i, ∀ t ∈ (Resolver.ofFiles g.nodes).targets language i, t ∈ g.nodes
  /-- Every import of a file that could be read is booked once. -/
  ledger : Ledger (Resolver.ofFiles g.nodes) policy (importSites outlines) g.links g.unresolved
  /-- Every edge comes from an import of a file that could be read. -/
  edges_mem : ∀ e ∈ g.edges, ∃ o ∈ outlines, o.succeeded = true ∧ o.path.normalize = e.1 ∧
    ∃ i ∈ o.imports, e.2 ∈ (Resolver.ofFiles g.nodes).targets o.language i
  externalFanOut_eq : ∀ p, g.externalFanOut p = ((g.unresolved.filter fun u => u.source.same p).map
    UnresolvedImport.modulePath).toFinset.card

/-- **Accounting.**  The graph of some outlines has their normal paths as nodes, and its links and
unresolved imports account for every import of a file that could be read, each once. -/
theorem ofOutlines_accounts : (ofOutlines outlines policy).Accounts outlines policy where
  nodup := (ofOutlines_proper outlines policy).ascending.nodup
  mem_nodes _ := mem_nodes_ofOutlines outlines policy
  targets_mem _ _ _ := Resolver.mem_of_mem_targets
  ledger := ledger_ofOutlines outlines policy
  edges_mem := by
    rintro ⟨p, q⟩ he
    obtain ⟨hp, hq⟩ := mem_edges.mp he
    obtain ⟨l, hl, hlp, rfl⟩ := (ofOutlines_proper outlines policy).mem_successors.mp hq
    obtain ⟨⟨o, i⟩, hs, hsource, ht⟩ := (ledger_ofOutlines outlines policy).exists_site hl
    obtain ⟨ho, hok, hi⟩ := mem_importSites.mp hs
    refine ⟨o, ho, hok, ?_, i, hi, ht⟩
    -- both ends of the comparison are nodes, which have one spelling each
    rw [hsource] at hlp
    exact (ofOutlines_proper outlines policy).ascending.eq_of_same
      ((mem_nodes_ofOutlines outlines policy).mpr ⟨o, ho, rfl⟩) hp hlp
  externalFanOut_eq := externalFanOut_eq_card _

end Graph

end ArchReview

import ArchReview.Proofs.Graph.Alike
import ArchReview.Proofs.Rule.Placement
import Mathlib.Data.List.Forall2

/-!
# Imports across layers

A file of a layer *breaches* its limits where it imports a file of a layer that its own may not use.
A breach is told by the line and the target: an import may lead to several files, and several
imports of one line to the same file.

**Breaches** (`run_breaches`).  For every file that could be read and has a layer, the violations
against imports across layers are those of its breaches, one to each, and none else; a file without
a layer has no violation at all.

The links of a file are looked at one after the other (`breachStep`).  At every point the breaches
among the links so far have been found, each once (`Found`).
-/

namespace ArchReview.Layering

/-! ### Breaches -/

/-- The line of a link, and the file it leads to. -/
def site (l : Link) : Nat × Path := (l.line, l.target)

/-- A file of a layer that another layer may not use. -/
def Forbidden (s : Settings) (layer : Layer) (target : Path) : Prop :=
  ∃ other, s.layers.classify target = some other ∧ other ∉ s.permittedLayers layer

/-- A file, taken to be of a layer, has a link with this line and target, and may not use it. -/
def BreachAt (p : Project) (layer : Layer) (o : Outline) (place : Nat × Path) : Prop :=
  ∃ l ∈ p.graph.linksOf o.path.normalize, site l = place ∧ Forbidden p.settings layer l.target

/-- The violation that tells of a breach: where it is, what it leads to, and the two layers. -/
structure TellsOf (p : Project) (layer : Layer) (o : Outline) (place : Nat × Path) (v : Violation) :
    Prop where
  rule : v.rule = "LAYER-003"
  path : v.path = o.path
  line : v.line = some place.1
  target : v.details.lookup "target" = some place.2.text
  source_layer : v.details.lookup "from_layer" = some layer.text
  target_layer : ∃ other, p.settings.layers.classify place.2 = some other ∧
    v.details.lookup "to_layer" = some other.text

/-! ### Looking at the links -/

/-- Looks at one more link, with the sites and the breaches found so far. -/
def breachStep (s : Settings) (layer : Layer) :
    List (Nat × Path) × List (Link × Layer) → Link → List (Nat × Path) × List (Link × Layer) :=
  fun (seen, found) link =>
    match s.layers.classify link.target with
    | none        => (seen, found)
    | some target =>
      if (s.permittedLayers layer).contains target || seen.contains (link.line, link.target) then
        (seen, found)
      else (seen ++ [(link.line, link.target)], found ++ [(link, target)])

theorem breaches_eq (s : Settings) (layer : Layer) (links : List Link) :
    breaches s layer links = (links.foldl (breachStep s layer) ([], [])).2 := rfl

/-- A link adds a breach that is not known yet, or nothing. -/
theorem breachStep_cases (s : Settings) (layer : Layer) (seen : List (Nat × Path))
    (found : List (Link × Layer)) (l : Link) :
    (breachStep s layer (seen, found) l = (seen, found) ∧
      (Forbidden s layer l.target → site l ∈ seen)) ∨
    ∃ other, s.layers.classify l.target = some other ∧ other ∉ s.permittedLayers layer ∧
      site l ∉ seen ∧
      breachStep s layer (seen, found) l = (seen ++ [site l], found ++ [(l, other)]) := by
  unfold breachStep
  cases hother : s.layers.classify l.target with
  | none =>
      refine Or.inl ⟨rfl, ?_⟩
      rintro ⟨other, h, -⟩
      rw [hother] at h
      cases h
  | some other =>
      dsimp only
      split
      · rename_i known
        refine Or.inl ⟨rfl, ?_⟩
        rintro ⟨other', h, hforbidden⟩
        obtain rfl : other = other' := Option.some.inj (hother.symm.trans h)
        rw [Bool.or_eq_true, List.contains_iff_mem, List.contains_iff_mem] at known
        exact known.resolve_left hforbidden
      · rename_i unknown
        rw [Bool.or_eq_true, List.contains_iff_mem, List.contains_iff_mem, not_or] at unknown
        exact Or.inr ⟨other, rfl, unknown.1, unknown.2, rfl⟩

/-- The breaches among the links looked at have been found, each once. -/
structure Found (s : Settings) (layer : Layer) (looked : List Link)
    (state : List (Nat × Path) × List (Link × Layer)) : Prop where
  sites_eq : state.2.map (fun b => site b.1) = state.1
  nodup : state.1.Nodup
  sound : ∀ b ∈ state.2, b.1 ∈ looked ∧ s.layers.classify b.1.target = some b.2 ∧
    b.2 ∉ s.permittedLayers layer
  complete : ∀ l ∈ looked, Forbidden s layer l.target → site l ∈ state.1

variable {s : Settings} {layer : Layer}

theorem Found.step {looked : List Link} {state : List (Nat × Path) × List (Link × Layer)}
    (h : Found s layer looked state) (l : Link) :
    Found s layer (looked ++ [l]) (breachStep s layer state l) := by
  obtain ⟨seen, found⟩ := state
  have sound : ∀ b ∈ found, b.1 ∈ looked ++ [l] ∧ s.layers.classify b.1.target = some b.2 ∧
      b.2 ∉ s.permittedLayers layer := fun b hb =>
    ⟨List.mem_append_left _ (h.sound b hb).1, (h.sound b hb).2⟩
  rcases breachStep_cases s layer seen found l with ⟨e, known⟩ | ⟨other, hother, hforbidden, new, e⟩
  · rw [e]
    refine ⟨h.sites_eq, h.nodup, sound, fun k hk hbreach => ?_⟩
    rcases List.mem_append.mp hk with hk | hk
    · exact h.complete k hk hbreach
    · rw [List.mem_singleton.mp hk] at hbreach ⊢
      exact known hbreach
  · rw [e]
    refine ⟨?_, ?_, fun b hb => ?_, fun k hk hbreach => ?_⟩
    · simpa using h.sites_eq
    · exact h.nodup.append (List.nodup_singleton _) (List.disjoint_singleton.mpr new)
    · rcases List.mem_append.mp hb with hb | hb
      · exact sound b hb
      · rw [List.mem_singleton.mp hb]
        exact ⟨List.mem_append_right _ (List.mem_singleton_self l), hother, hforbidden⟩
    · rcases List.mem_append.mp hk with hk | hk
      · exact List.mem_append_left _ (h.complete k hk hbreach)
      · rw [List.mem_singleton.mp hk]
        exact List.mem_append_right _ (List.mem_singleton_self _)

theorem Found.foldl (links : List Link) : ∀ {looked : List Link}
    {state : List (Nat × Path) × List (Link × Layer)}, Found s layer looked state →
      Found s layer (looked ++ links) (links.foldl (breachStep s layer) state) := by
  induction links with
  | nil => exact fun h => by simpa using h
  | cons l links ih => exact fun h => by simpa using ih (h.step l)

theorem found_breaches (s : Settings) (layer : Layer) (links : List Link) :
    Found s layer links (links.foldl (breachStep s layer) ([], [])) := by
  have none_yet : Found s layer [] ([], []) :=
    ⟨rfl, List.nodup_nil, fun _ hb => absurd hb List.not_mem_nil,
      fun _ hl => absurd hl List.not_mem_nil⟩
  exact none_yet.foldl links

/-- No line and target is told twice. -/
theorem nodup_sites_breaches (s : Settings) (layer : Layer) (links : List Link) :
    ((breaches s layer links).map fun b => site b.1).Nodup := by
  rw [breaches_eq, (found_breaches s layer links).sites_eq]
  exact (found_breaches s layer links).nodup

/-- The sites told are those of the links that are not allowed. -/
theorem mem_sites_breaches {links : List Link} {place : Nat × Path} :
    place ∈ (breaches s layer links).map (fun b => site b.1) ↔
      ∃ l ∈ links, site l = place ∧ Forbidden s layer l.target := by
  have found := found_breaches s layer links
  rw [breaches_eq]
  constructor
  · intro h
    obtain ⟨b, hb, rfl⟩ := List.mem_map.mp h
    obtain ⟨hlink, hother, hforbidden⟩ := found.sound b hb
    exact ⟨b.1, hlink, rfl, b.2, hother, hforbidden⟩
  · rintro ⟨l, hl, rfl, hforbidden⟩
    rw [found.sites_eq]
    exact found.complete l hl hforbidden

/-! ### Violations of a file -/

theorem rule_of_mem_databaseAccess {f : SourceOutline} {v : Violation}
    (h : v ∈ databaseAccess f) : v.rule = "LAYER-001" := by
  obtain ⟨line, -, hv⟩ := List.mem_filterMap.mp h
  obtain ⟨use, -, rfl⟩ := Option.map_eq_some_iff.mp hv
  rfl

theorem rule_of_mem_businessLogic {markers : List String} {f : SourceOutline} {v : Violation}
    (h : v ∈ businessLogic markers f) : v.rule = "LAYER-002" := by
  unfold businessLogic at h
  dsimp only at h
  split at h
  · cases h
  · rw [List.mem_singleton.mp h]

theorem rule_of_mem_layerImports {p : Project} {o : Outline} {v : Violation}
    (h : v ∈ layerImports p layer o) : v.rule = "LAYER-003" := by
  obtain ⟨breach, -, rfl⟩ := List.mem_map.mp h
  rfl

/-- Of what is wrong with a file of a layer, the third rule has found the imports. -/
theorem filter_inLayer (p : Project) (layer : Layer) (f : SourceOutline) :
    ((inLayer p layer f).filter fun v => v.rule == "LAYER-003") =
      layerImports p layer f.outline := by
  unfold inLayer
  rw [List.filter_append, filter_rule fun v => rule_of_mem_layerImports]
  cases layer with
  | presentation => rw [filter_rule fun v => rule_of_mem_databaseAccess]; rfl
  | data => rw [filter_rule fun v => rule_of_mem_businessLogic]; rfl
  | business => rfl

theorem table_layers (source target layer : String) :
    Text.table [("from_layer", source), ("to_layer", layer), ("target", target)] =
      [("from_layer", source), ("target", target), ("to_layer", layer)] := by
  have behind : Text.compareStrings "to_layer" "from_layer" = .gt ∧
      Text.compareStrings "target" "from_layer" = .gt ∧
      Text.compareStrings "target" "to_layer" = .lt := by decide +kernel
  simp [Text.table, Text.insertEntry, behind]

/-- A breach that was found is told. -/
theorem forall₂_layerImports (p : Project) (layer : Layer) (o : Outline) :
    List.Forall₂ (TellsOf p layer o)
      ((breaches p.settings layer (p.graph.linksOf o.path.normalize)).map fun b => site b.1)
      (layerImports p layer o) := by
  rw [layerImports, List.forall₂_map_left_iff, List.forall₂_map_right_iff, List.forall₂_same]
  intro b hb
  have known := ((found_breaches _ _ _).sound b hb).2.1
  refine ⟨rfl, rfl, rfl, ?_, ?_, b.2, known, ?_⟩
  all_goals
    dsimp only
    rw [table_layers]
    rfl

/-- Sites with the same line and the same target, however it is spelled. -/
def SameSite (a b : Nat × Path) : Prop := a.1 = b.1 ∧ a.2.same b.2 = true

/-- **Breaches.**  For every file that could be read and has a layer, the violations against imports
across layers tell of its breaches, one of each; a file without a layer has no violation.  All this
is found unless the compiler of patterns refuses that of the business markers. -/
theorem run_breaches (files : List SourceOutline) (settings : Settings) :
    let p := Project.ofFiles files settings
    (refusal? settings = none → analyzer.run p = .ok (p.parsed.flatMap (inFile p))) ∧
      (∀ reason, refusal? settings = some reason → analyzer.run p = .error reason) ∧
      ∀ f ∈ p.parsed,
        (settings.layers.classify f.outline.path = none → inFile p f = []) ∧
        ∀ layer, settings.layers.classify f.outline.path = some layer →
          ∃ sites : List (Nat × Path), sites.Pairwise (fun a b => ¬ SameSite a b) ∧
            (∀ place, place ∈ sites ↔ BreachAt p layer f.outline place) ∧
            List.Forall₂ (TellsOf p layer f.outline) sites
              ((inFile p f).filter fun v => v.rule == "LAYER-003") := by
  intro p
  have run : analyzer.run p =
      (refusal? settings).elim (.ok (p.parsed.flatMap (inFile p))) .error :=
    p.inEachFileUnless_eq _ _
  refine ⟨fun hbuilt => ?_, fun reason hrefused => ?_,
    fun f _ => ⟨fun hnone => ?_, fun layer hlayer => ?_⟩⟩
  · rw [run, hbuilt]
    rfl
  · rw [run, hrefused]
    rfl
  · have hnone : p.settings.layers.classify f.outline.path = none := hnone
    rw [inFile, hnone]
  · have hlayer : p.settings.layers.classify f.outline.path = some layer := hlayer
    refine ⟨_, ?_, fun place => mem_sites_breaches, ?_⟩
    · -- targets are nodes of the graph, and these have one spelling each
      have target_mem : ∀ place ∈ (breaches settings layer
          (p.graph.linksOf f.outline.path.normalize)).map (fun b => site b.1),
          place.2 ∈ p.graph.nodes := fun place h => by
        obtain ⟨l, hl, rfl, -⟩ := mem_sites_breaches.mp h
        exact (Graph.ofOutlines_proper _ _).target_mem l (List.mem_of_mem_filter hl)
      refine (nodup_sites_breaches _ _ _).imp_of_mem fun {a b} ha hb hne same => hne ?_
      exact Prod.ext same.1 ((Graph.ofOutlines_proper _ _).ascending.eq_of_same
        (target_mem a ha) (target_mem b hb) same.2)
    · rw [inFile, hlayer]
      dsimp only
      rw [filter_inLayer]
      exact forall₂_layerImports p layer f.outline

/-! ### A model that imports a form -/

/-- A model with two imports of the same view in one line. -/
def formModel : SourceOutline :=
  ⟨Graph.scriptImporting "app/models/user.ts" ["app/views/forms", "app/views/forms"], ""⟩

def formScripts : List SourceOutline :=
  [formModel, ⟨Graph.scriptImporting "app/views/forms.ts" [], ""⟩]

theorem links_formScripts : (Project.ofFiles formScripts {}).graph.links =
    List.replicate 2 ⟨⟨"app/models/user.ts"⟩, ⟨"app/views/forms.ts"⟩, "./app/views/forms", 1⟩ := by
  have nodes := @Graph.nodes_of_ascending (formScripts.map SourceOutline.outline)
    (by decide +kernel) .suppress
  change (Graph.ofOutlines (formScripts.map SourceOutline.outline) .suppress).links = _
  rw [Graph.links_ofOutlines, nodes]
  decide +kernel

theorem breachAt_formScripts {place : Nat × Path} :
    BreachAt (Project.ofFiles formScripts {}) .data formModel.outline place ↔
      place = (1, ⟨"app/views/forms.ts"⟩) := by
  have forbidden : Forbidden {} .data ⟨"app/views/forms.ts"⟩ :=
    ⟨.presentation, by decide +kernel, by decide +kernel⟩
  have here : (⟨"app/models/user.ts"⟩ : Path).same formModel.outline.path.normalize = true := by
    decide +kernel
  rw [BreachAt, Graph.linksOf, links_formScripts]
  simp only [List.mem_filter, List.mem_replicate]
  constructor
  · rintro ⟨l, ⟨⟨-, rfl⟩, -⟩, rfl, -⟩
    rfl
  · rintro rfl
    exact ⟨_, ⟨⟨by decide, rfl⟩, here⟩, rfl, forbidden⟩

/-- Settings for a compiler that refuses every pattern. -/
def strictSettings : Settings := { compiler := ⟨fun _ => some "too large"⟩ }

theorem run_breaches_formScripts :
    let p := Project.ofFiles formScripts {}
    refusal? {} = none ∧ analyzer.run p = .ok (p.parsed.flatMap (inFile p)) ∧
      analyzer.run (Project.ofFiles formScripts strictSettings) =
        .error "invalid business-logic marker pattern: too large" ∧
      formModel ∈ p.parsed ∧ p.settings.layers.classify formModel.outline.path = some .data ∧
      ∃ v, ((inFile p formModel).filter fun v => v.rule == "LAYER-003") = [v] ∧
        TellsOf p .data formModel.outline (1, ⟨"app/views/forms.ts"⟩) v := by
  intro p
  have parsed : formModel ∈ p.parsed := by decide +kernel
  have layer : p.settings.layers.classify formModel.outline.path = some .data := by decide +kernel
  have built : refusal? {} = none := by decide +kernel
  have refused : refusal? strictSettings =
      some "invalid business-logic marker pattern: too large" := by decide +kernel
  obtain ⟨run, -, inFiles⟩ := run_breaches formScripts {}
  obtain ⟨sites, apart, hsites, told⟩ := (inFiles formModel parsed).2 .data layer
  simp only [breachAt_formScripts] at hsites
  have only : sites = [(1, ⟨"app/views/forms.ts"⟩)] := by
    have distinct : sites.Nodup := apart.imp fun {a b} h (e : a = b) =>
      h (by rw [e]; exact ⟨rfl, Path.same_refl _⟩)
    exact List.perm_singleton.mp ((List.perm_ext_iff_of_nodup distinct
      (List.nodup_singleton _)).mpr fun place => (hsites place).trans List.mem_singleton.symm)
  rw [only] at told
  obtain ⟨v, rest, hv, hnil, e⟩ := List.forall₂_cons_left_iff.mp told
  rw [List.forall₂_nil_left_iff.mp hnil] at e
  exact ⟨built, run built, (run_breaches formScripts strictSettings).2.1 _ refused, parsed, layer, v,
    e, hv⟩

end ArchReview.Layering

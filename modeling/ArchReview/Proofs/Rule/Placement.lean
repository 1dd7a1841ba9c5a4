import ArchReview.Rule.Design
import ArchReview.Rule.Layering
import ArchReview.Rule.Recognition

/-!
# Where rules place what they find

A rule for single files places all its violations in the file it looks at: at the path as it was
given, not at its normal form (`Solid.placedIn_inFile`, `Design.placedIn_inFile`,
`Layering.placedIn_inFile`).  The same holds for recognised patterns.

The rules are built from a few operations on lists of violations, and placing is followed through
these.  What a rule found is told apart from what others found by its name (`filter_rule`).
-/

namespace ArchReview

/-- All violations lie in one file. -/
def PlacedIn (path : Path) (violations : List Violation) : Prop := ∀ v ∈ violations, v.path = path

namespace PlacedIn

variable {path : Path}

theorem nil : PlacedIn path [] := fun _ hv => absurd hv List.not_mem_nil

theorem singleton {v : Violation} (h : v.path = path) : PlacedIn path [v] :=
  List.forall_mem_singleton.mpr h

theorem append {vs ws : List Violation} (hv : PlacedIn path vs) (hw : PlacedIn path ws) :
    PlacedIn path (vs ++ ws) := List.forall_mem_append.mpr ⟨hv, hw⟩

theorem ite {c : Prop} [Decidable c] {vs : List Violation} (h : PlacedIn path vs) :
    PlacedIn path (if c then vs else []) := by
  split
  · exact h
  · exact nil

theorem map {α : Type} {find : α → Violation} (h : ∀ a, (find a).path = path) (l : List α) :
    PlacedIn path (l.map find) := by
  intro v hv
  obtain ⟨a, -, rfl⟩ := List.mem_map.mp hv
  exact h a

theorem flatMap {α : Type} {find : α → List Violation} (h : ∀ a, PlacedIn path (find a))
    (l : List α) : PlacedIn path (l.flatMap find) := by
  intro v hv
  obtain ⟨a, -, hv⟩ := List.mem_flatMap.mp hv
  exact h a v hv

theorem filterMap {α : Type} {find : α → Option Violation}
    (h : ∀ a, ∀ v ∈ find a, v.path = path) (l : List α) : PlacedIn path (l.filterMap find) := by
  intro v hv
  obtain ⟨a, -, hv⟩ := List.mem_filterMap.mp hv
  exact h a v hv

end PlacedIn

/-- Of violations of one rule, those of a rule are all or none. -/
theorem filter_rule {vs : List Violation} {rule : String} (h : ∀ v ∈ vs, v.rule = rule)
    (other : String) : (vs.filter fun v => v.rule == other) = if rule = other then vs else [] := by
  split
  · rename_i same
    exact List.filter_eq_self.mpr fun v hv => beq_iff_eq.mpr ((h v hv).trans same)
  · rename_i apart
    exact List.filter_eq_nil_iff.mpr fun v hv e => apart ((h v hv).symm.trans (beq_iff_eq.mp e))

open PlacedIn

/-! ### Class design -/

namespace Solid

theorem placedIn_singleResponsibility (t : Thresholds) (o : Outline) :
    PlacedIn o.path (singleResponsibility t o) :=
  flatMap (fun _ => ((ite (singleton (by rfl))).append (ite (singleton (by rfl)))).append
    (ite (singleton (by rfl)))) _

theorem placedIn_openClosed (t : Thresholds) (o : Outline) : PlacedIn o.path (openClosed t o) :=
  flatMap (fun _ => map (fun _ => by rfl) _) _

theorem placedIn_substitution (o : Outline) : PlacedIn o.path (substitution o) := by
  refine flatMap (fun c => ?_) _
  unfold refusedBequests
  split
  · exact nil
  · exact map (fun _ => by rfl) _

theorem placedIn_interfaceSegregation (t : Thresholds) (o : Outline) :
    PlacedIn o.path (interfaceSegregation t o) :=
  flatMap (fun _ => (ite (singleton (by rfl))).append (ite (singleton (by rfl)))) _

theorem placedIn_dependencyInversion (s : Settings) (o : Outline) :
    PlacedIn o.path (dependencyInversion s o) := by
  unfold dependencyInversion
  split
  · exact nil
  · exact map (fun _ => by rfl) _

theorem placedIn_inFile (s : Settings) (o : Outline) : PlacedIn o.path (inFile s o) :=
  ((((placedIn_singleResponsibility _ o).append (placedIn_openClosed _ o)).append
    (placedIn_substitution o)).append (placedIn_interfaceSegregation _ o)).append
    (placedIn_dependencyInversion s o)

end Solid

/-! ### Smells -/

namespace Design

theorem placedIn_magicNumbers (t : Thresholds) (o : Outline) :
    PlacedIn o.path (magicNumbers t o) := by
  unfold magicNumbers
  dsimp only
  split
  · exact nil
  · exact singleton (by rfl)

theorem placedIn_unusedImports (o : Outline) : PlacedIn o.path (unusedImports o) := by
  unfold unusedImports
  split
  · exact nil
  · exact singleton (by rfl)

theorem placedIn_factoryOpportunities (t : Thresholds) (o : Outline) :
    PlacedIn o.path (factoryOpportunities t o) := by
  refine flatMap (fun name => ?_) _
  dsimp only
  split
  · exact nil
  · exact ite (singleton (by rfl))

theorem placedIn_globalState (o : Outline) : PlacedIn o.path (globalState o) := by
  refine flatMap (fun name => ?_) _
  dsimp only
  split
  · exact nil
  · exact ite (singleton (by rfl))

theorem placedIn_inFile (t : Thresholds) (o : Outline) : PlacedIn o.path (inFile t o) := by
  have long : PlacedIn o.path (longMethods t o) := map (fun _ => by rfl) _
  have complex : PlacedIn o.path (complexMethods t o) := map (fun _ => by rfl) _
  have large : PlacedIn o.path (godClasses t o) := map (fun _ => by rfl) _
  have switches : PlacedIn o.path (strategyOpportunities t o) := map (fun _ => by rfl) _
  exact ((((((long.append complex).append large).append (placedIn_magicNumbers t o)).append
    (placedIn_unusedImports o)).append (placedIn_factoryOpportunities t o)).append switches).append
    (placedIn_globalState o)

end Design

/-! ### Layers -/

namespace Layering

theorem placedIn_databaseAccess (f : SourceOutline) :
    PlacedIn f.outline.path (databaseAccess f) := by
  refine filterMap (fun line v hv => ?_) _
  obtain ⟨_, -, rfl⟩ := Option.map_eq_some_iff.mp hv
  rfl

theorem placedIn_businessLogic (markers : List String) (f : SourceOutline) :
    PlacedIn f.outline.path (businessLogic markers f) := by
  unfold businessLogic
  dsimp only
  split
  · exact nil
  · exact singleton (by rfl)

theorem placedIn_inLayer (p : Project) (layer : Layer) (f : SourceOutline) :
    PlacedIn f.outline.path (inLayer p layer f) := by
  refine append ?_ (map (fun _ => by rfl) _)
  cases layer with
  | presentation => exact placedIn_databaseAccess f
  | data => exact placedIn_businessLogic _ f
  | business => exact nil

theorem placedIn_inFile (p : Project) (f : SourceOutline) :
    PlacedIn f.outline.path (inFile p f) := by
  unfold inFile
  split
  · exact nil
  · exact placedIn_inLayer p _ f

end Layering

/-! ### Patterns -/

namespace Recognition

theorem path_of_mem_inClass {p : Project} {interfaces : List String} {path : Path} {c : ClassDef}
    {found : PatternFinding} (h : found ∈ inClass p interfaces path c) : found.path = path := by
  obtain ⟨_, -, h⟩ := List.mem_filterMap.mp h
  obtain ⟨_, -, rfl⟩ := Option.map_eq_some_iff.mp h
  rfl

end Recognition

end ArchReview

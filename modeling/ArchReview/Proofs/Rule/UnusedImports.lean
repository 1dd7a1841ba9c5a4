import ArchReview.Proofs.Outline.Names
import ArchReview.Rule.Design

/-!
# Unused imports

The rule reports one violation for a file, which lists names (`listed`); for a hub it lists none.
In any other file a name is listed exactly if an import binds it and the syntax trees of the file
neither use it nor have it as a string (`unusedImports_exact`).

So a name that is used is never reported, where being used is `Family.Uses`: being mentioned outside
the parts that the outline overlooks.  An import that is mentioned only in such a part is reported
although it is needed (`unusedImports_lists_decorator`).
-/

namespace ArchReview.Design

/-- The names that the rule lists for a file. -/
def listed (o : Outline) : List String := if isHub o.path then [] else (unusedNames o).map Prod.fst

/-- An import binds a name that the file is expected to use. -/
def Binds (i : Import) (name : String) : Prop :=
  (i.kind = .static ∨ i.kind = .require) ∧ i.modulePath ≠ "__future__" ∧ name ∈ i.bindings

instance (i : Import) (name : String) : Decidable (Binds i name) :=
  inferInstanceAs (Decidable (_ ∧ _))

/-- What a violation for the listed names says, if there are any. -/
theorem unusedImports_eq (o : Outline) :
    (unusedImports o).map (fun v => (v.path, v.description, v.details)) =
      if listed o = [] then [] else
        [(o.path, "Imported but never used: " ++ ", ".intercalate (listed o) ++ ".",
          [("names", ",".intercalate (listed o))])] := by
  unfold unusedImports listed
  split
  · rename_i hnone
    split at hnone <;> simp_all
  · rename_i hsome
    split at hsome <;> simp_all

theorem bindsNames_iff {i : Import} :
    bindsNames i = true ↔ (i.kind = .static ∨ i.kind = .require) ∧ i.modulePath ≠ "__future__" := by
  unfold bindsNames
  cases i.kind <;> simp

theorem mem_unusedNames {o : Outline} {name : String} :
    name ∈ (unusedNames o).map Prod.fst ↔
      (∃ i ∈ o.imports, Binds i name) ∧ name ∉ o.strings ∧ name ∉ o.identifiers := by
  simp only [unusedNames, isReferenced, Binds, List.mem_map, List.mem_flatMap, List.mem_filter,
    bindsNames_iff]
  grind

theorem mem_listed {o : Outline} {name : String} :
    name ∈ listed o ↔ isHub o.path = false ∧ (∃ i ∈ o.imports, Binds i name) ∧
      name ∉ o.strings ∧ name ∉ o.identifiers := by
  rw [listed, ← mem_unusedNames]
  cases isHub o.path <;> simp

/-- What the rule reports of a file is right, as far as names are used as `uses` says: one violation
for the names that are imported but neither used nor there as strings. -/
structure ReportsUnused (file : Path) (o : Outline) (uses : String → Prop) : Prop where
  violations : (unusedImports o).map (fun v => (v.path, v.description, v.details)) =
    if listed o = [] then [] else
      [(file, "Imported but never used: " ++ ", ".intercalate (listed o) ++ ".",
        [("names", ",".intercalate (listed o))])]
  exact (name : String) : name ∈ listed o ↔ isHub file = false ∧
    (∃ i ∈ o.imports, Binds i name) ∧ name ∉ o.strings ∧ ¬ uses name

/-- **Unused imports.**  Whatever the syntax trees of a file, the names that the rule lists are the
imported ones that the trees neither use nor have as strings; and so of every text that is read. -/
theorem unusedImports_exact (family : Family) (file : Path) (language : Language) (text : String)
    (forest : family.Forest) :
    ReportsUnused file (family.outlineOf file language text forest) (family.Uses forest) ∧
      (family.parse file text = .ok forest →
        family.outline file language text =
          .ok (family.outlineOf file language text forest)) := by
  refine ⟨⟨unusedImports_eq _, fun name => ?_⟩, fun h => Family.outline_of_parse h language⟩
  rw [mem_listed, Family.mem_identifiers]
  rfl

/-- A class with a base that bounds its type parameter and another that it extends. -/
def boundedClass : String := "from b import Base, Root\nclass A[T: Base](Root):\n    pass\n"

theorem unusedImports_exact_boundedClass :
    ∃ forest o, Family.python.parse ⟨"a.py"⟩ boundedClass = .ok forest ∧
      Family.python.outline ⟨"a.py"⟩ .python boundedClass = .ok o ∧ listed o = ["Base"] ∧
      ¬ Family.python.Uses forest "Base" ∧ Family.python.Uses forest "Root" := by
  have read : (Family.python.parse ⟨"a.py"⟩ boundedClass).toOption.any (fun forest => decide
      (let o := Family.python.outlineOf ⟨"a.py"⟩ .python boundedClass forest
       listed o = ["Base"] ∧ (∃ i ∈ o.imports, Binds i "Root") ∧ "Root" ∉ o.strings)) = true := by
    decide +kernel
  obtain ⟨forest, hparse, hlisted, himport, hstring⟩ := exists_ok_of_any read
  obtain ⟨⟨-, exact⟩, houtline⟩ :=
    unusedImports_exact .python ⟨"a.py"⟩ .python boundedClass forest
  refine ⟨forest, _, hparse, houtline hparse, hlisted, ?_, ?_⟩
  · have hbase := exact "Base"
    rw [hlisted] at hbase
    exact (hbase.mp (List.mem_singleton_self _)).2.2.2
  · by_contra hunused
    have hroot := (exact "Root").mpr ⟨by decide, himport, hstring, hunused⟩
    rw [hlisted] at hroot
    exact absurd hroot (by decide)

/-- A class with a decorated field. -/
def decoratedField : String :=
  "import \x7b Inject \x7d from './di'\nclass A \x7b\n  @Inject() repo: string\n\x7d\n"

/-- The decorator of a field is mentioned, and its import is reported as unused. -/
theorem unusedImports_lists_decorator : ∃ forest around t o,
    Script.parse (Script.dialectOf ⟨"a.ts"⟩) decoratedField.toList = .ok forest ∧
      Script.Mentions forest "Inject" around t ∧ (∃ a ∈ around, a.kind = .decorator) ∧
      Family.script.outline ⟨"a.ts"⟩ .typeScript decoratedField = .ok o ∧
      (∃ i ∈ o.imports, Binds i "Inject") ∧ "Inject" ∈ listed o := by
  have place : (Script.parse (Script.dialectOf ⟨"a.ts"⟩) decoratedField.toList).toOption.any
      (fun forest => decide (∃ definition ∈ forest, ∃ body ∈ definition.children,
        ∃ field ∈ body.children, ∃ mark ∈ field.children, ∃ call ∈ mark.children,
        ∃ name ∈ call.children, mark.kind = .decorator ∧
          Tree.Clear (fun around t => Script.Declares (Script.standing around t) t)
            [call, mark, field, body, definition] name ∧
          (Script.standing [call, mark, field, body, definition] name).isPlain = true ∧
          Script.isName name.kind = true ∧ name.text = "Inject")) = true := by
    decide +kernel
  have report : (Family.script.outline ⟨"a.ts"⟩ .typeScript decoratedField).toOption.any (fun o =>
      decide ((∃ i ∈ o.imports, Binds i "Inject") ∧ "Inject" ∈ listed o)) = true := by
    decide +kernel
  obtain ⟨forest, hparse, definition, hdefinition, body, hbody, field, hfield, mark, hmark, call,
    hcall, name, hname, hdecorator, hclear, hplain, hkind, htext⟩ := exists_ok_of_any place
  obtain ⟨o, houtline, himport, hlisted⟩ := exists_ok_of_any report
  have hstands : Tree.Stands forest [call, mark, field, body, definition] name :=
    .part (.part (.part (.part (.part (.top hdefinition) hbody) hfield) hmark) hcall) hname
  exact ⟨forest, _, name, o, hparse, ⟨hstands, hclear, hplain, hkind, htext⟩,
    ⟨mark, by simp, hdecorator⟩, houtline, himport, hlisted⟩

end ArchReview.Design

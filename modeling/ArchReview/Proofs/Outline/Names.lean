import ArchReview.Proofs.Outline.Reading
import ArchReview.Proofs.Text.NameSet
import ArchReview.Proofs.Tree.Walk
import Mathlib.Tactic.MkIffOfInductiveProp

/-!
# The names that a text uses

The names in the outline of a text are collected by a walk over its syntax trees, which does not
enter every part.  The parts that it passes over are of two sorts.  In some, names are declared,
imported or passed on (`Declares`).  A name that stands outside these is mentioned (`Mentions`).  In
the others, names are mentioned as anywhere else, and are missed (`Overlooks`): the type parameters
of classes in both languages, and in scripts also those of interfaces, the decorators and the
computed names of fields, the computed names of methods, the type of a field that holds a function,
and whatever stands in a destructuring declaration.

The names of an outline are exactly those that are mentioned outside the parts of the second sort
(`Family.mem_identifiers`), whatever the trees are.
-/

namespace ArchReview

/-! ### Collected names -/

namespace Facts

variable {κ σ : Type} {facts : σ → Tree κ → Facts}
  {factsAll : (Tree κ → Option σ) → List (Tree κ) → Facts} {name : String}

theorem mem_identifiers_append {f g : Facts} :
    name ∈ (f ++ g).identifiers ↔ name ∈ f.identifiers ∨ name ∈ g.identifiers := List.mem_append

theorem mem_identifiers_elim {t : Tree κ} {scope? : Option σ} :
    name ∈ (scope?.elim ({} : Facts) fun s => facts s t).identifiers ↔
      ∃ s, scope? = some s ∧ name ∈ (facts s t).identifiers := by
  cases scope? with
  | none => simp
  | some s => simp

theorem Joins.mem_identifiers (hjoins : Joins facts factsAll) (place : Tree κ → Option σ)
    (ts : List (Tree κ)) : name ∈ (factsAll place ts).identifiers ↔
      ∃ t ∈ ts, ∃ s, place t = some s ∧ name ∈ (facts s t).identifiers := by
  induction ts with
  | nil => simp [hjoins.nil]
  | cons t ts ih => simp [hjoins.cons, mem_identifiers_append, mem_identifiers_elim, ih]

theorem mem_identifiers_outline {f : Facts} {file : Path} {language : Language} {lineCount : Nat}
    {base : Path → String → Path} :
    name ∈ (f.outline file language lineCount base).identifiers ↔ name ∈ f.identifiers :=
  Text.mem_nameSet

end Facts

namespace Python

open Facts (mem_identifiers_append)

/-! ### Python modules -/

/-- Only a name states a name. -/
theorem mem_identifiers_ownFacts {a : String} {scope : Scope} {t : Tree} :
    a ∈ (ownFacts scope t).identifiers ↔ t.kind = .identifier ∧ t.text = a := by
  unfold ownFacts
  grind [functionFacts, callFacts, ifFacts, matchFacts, globalFacts]

/-- What a tree uses is what it uses by itself and what the parts that are read use. -/
theorem mem_identifiers_facts {name : String} {scope : Scope} {t : Tree} :
    name ∈ (facts scope t).identifiers ↔ name ∈ (ownFacts scope t).identifiers ∨
      ∃ part ∈ t.children, ∃ s,
        partScope scope t part = some s ∧ name ∈ (facts s part).identifiers := by
  cases t with
  | leaf kind role gap text line => simp [facts, Tree.children]
  | node kind role first rest =>
      have inside : name ∈ (factsAll (partScope scope (.node kind role first rest))
          (first :: rest)).identifiers ↔ _ := joins_facts.mem_identifiers _ _
      rw [facts]
      split
      · rename_i hclass
        -- a class states no name by itself
        have hown : name ∉ (ownFacts scope (.node kind role first rest)).identifiers := by
          rw [mem_identifiers_ownFacts, Tree.kind, eq_of_beq hclass]
          rintro ⟨hkind, -⟩
          cases hkind
        exact inside.trans (or_iff_right hown).symm
      · rw [mem_identifiers_append]
        exact or_congr_right inside

/-- The walk that collects the names. -/
def namesWalk : Tree.Walk Kind Scope String where
  enter := partScope
  own scope t := (ownFacts scope t).identifiers
  all scope t := (facts scope t).identifiers
  mem_all := mem_identifiers_facts

/-- Parts where a name is declared, imported or only spelled.  The trees around `t` are `around`,
the nearest first. -/
inductive Declares (around : List Tree) (t part : Tree) : Prop where
  | imported (h : t.kind = .importStatement ∨ t.kind = .importFrom ∨ t.kind = .futureImport)
  | global (h : t.kind = .globalStatement)
  | title (h : t.kind = .classDefinition ∨ t.kind = .functionDefinition) (hpart : part.role = .name)
  /-- The name of an argument. -/
  | keyword (h : t.kind = .keywordArgument) (hpart : part.role ≠ .value)
  /-- The target of an assignment to a constant, outside functions. -/
  | constant {left : Tree} (h : t.kind = .assignment)
      (houtside : ∀ a ∈ around, a.kind ≠ .functionDefinition)
      (hleft : t.child? .left = some left) (hname : left.kind = .identifier)
      (hconstant : isConstantName left.text = true) (hpart : part.role ≠ .type ∧ part.role ≠ .right)

/-- Parts that are passed over although names are mentioned in them. -/
inductive Overlooks (t part : Tree) : Prop where
  /-- What stands in a class besides its name, its bases and its body: its type parameters. -/
  | typeParameters (h : t.kind = .classDefinition)
      (hpart : part.role ≠ .name ∧ part.role ≠ .superclasses ∧ part.role ≠ .body)
  /-- What stands in a decorated definition besides the decorators and the definition. -/
  | besideDecorators (h : t.kind = .decorated)
      (hpart : part.kind ≠ .decorator ∧ part.role ≠ .definition)

def PassesOver (around : List Tree) (t part : Tree) : Prop :=
  Declares around t part ∨ Overlooks t part

/-- The function that a scope names is one around the place. -/
def Scope.Fits (s : Scope) (around : List Tree) : Prop :=
  s.function = none ↔ ∀ a ∈ around, a.kind ≠ .functionDefinition

theorem assignsConstant_iff {scope : Scope} {t : Tree} :
    assignsConstant scope t = true ↔ scope.function = none ∧
      ∃ left, t.child? .left = some left ∧ left.kind = .identifier ∧
        isConstantName left.text = true := by
  unfold assignsConstant
  split
  · rename_i left hleft
    simp [hleft]
  · rename_i hleft
    simp [hleft]

theorem passesOver_of_none {scope : Scope} {around : List Tree} (hfits : scope.Fits around)
    {t part : Tree} (h : partScope scope t part = none) : PassesOver around t part := by
  unfold partScope at h
  dsimp only at h
  split at h
  · exact Or.inl (.imported (Or.inl ‹_›))
  · exact Or.inl (.imported (Or.inr (Or.inl ‹_›)))
  · exact Or.inl (.imported (Or.inr (Or.inr ‹_›)))
  · exact Or.inl (.global ‹_›)
  · rename_i hkind
    by_cases hname : part.role = .name
    · exact Or.inl (.title (Or.inl hkind) hname)
    · refine Or.inr (.typeParameters hkind ⟨hname, ?_, ?_⟩) <;> rintro hrole <;> simp [hrole] at h
  · rename_i hkind
    by_cases hname : part.role = .name
    · exact Or.inl (.title (Or.inr hkind) hname)
    · simp [hname] at h
  · rename_i hkind
    refine Or.inr (.besideDecorators hkind ⟨?_, ?_⟩)
    · rintro hpart
      simp [hpart] at h
    · rintro hpart
      rw [if_pos (beq_of_eq hpart)] at h
      split at h <;> cases h
  · rename_i hkind
    refine Or.inl (.keyword hkind ?_)
    rintro hrole
    simp [hrole] at h
  · cases h
  · rename_i hkind
    split at h
    · rename_i hconstant
      obtain ⟨hfunction, left, hleft, hname, hconstant⟩ := assignsConstant_iff.mp hconstant
      refine Or.inl (.constant hkind (hfits.mp hfunction) hleft hname hconstant ⟨?_, ?_⟩) <;>
        rintro hrole <;> simp [hrole] at h
    · cases h
  · cases h

theorem none_of_passesOver {scope : Scope} {around : List Tree} (hfits : scope.Fits around)
    {t part : Tree} (h : PassesOver around t part) : partScope scope t part = none := by
  rcases h with h | h
  · cases h with
    | imported h => rcases h with h | h | h <;> simp [partScope, h]
    | global h => simp [partScope, h]
    | title h hpart => rcases h with h | h <;> simp [partScope, h, hpart]
    | keyword h hpart => simp [partScope, h, hpart]
    | constant h houtside hleft hname hconstant hpart =>
        have hassigns : assignsConstant scope t = true :=
          assignsConstant_iff.mpr ⟨hfits.mpr houtside, _, hleft, hname, hconstant⟩
        simp [partScope, h, hassigns, hpart]
  · cases h with
    | typeParameters h hpart => simp [partScope, h, hpart]
    | besideDecorators h hpart => simp [partScope, h, hpart]

/-- A function is entered only with its name in the scope, and nothing else changes the function of
a scope. -/
theorem function_of_partScope {scope s : Scope} {t part : Tree}
    (h : partScope scope t part = some s) :
    if t.kind = .functionDefinition then s.function ≠ none else s.function = scope.function := by
  split
  · rename_i hkind
    simp only [partScope, hkind] at h
    split at h
    · cases h
    · cases h
      exact Option.some_ne_none _
  · rename_i hkind
    unfold partScope at h
    grind [Scope.inner]

theorem Scope.Fits.part {scope s : Scope} {around : List Tree} (hfits : scope.Fits around)
    {t part : Tree} (h : partScope scope t part = some s) : s.Fits (t :: around) := by
  have hfunction := function_of_partScope h
  unfold Fits at hfits ⊢
  rw [List.forall_mem_cons]
  split at hfunction
  · rename_i hkind
    exact iff_of_false hfunction fun hne => hne.1 hkind
  · rename_i hkind
    rw [hfunction, hfits]
    exact ⟨fun hne => ⟨hkind, hne⟩, And.right⟩

/-- A scope tells whether a place is inside a function, and nothing else decides which parts are
passed over. -/
theorem charted_namesWalk : namesWalk.Charted (fun s around _ => s.Fits around) PassesOver where
  none_iff hfits := ⟨passesOver_of_none hfits, none_of_passesOver hfits⟩
  agrees_part hfits h := hfits.part h

/-- A name is mentioned: it stands outside the parts that declare names. -/
structure Mentions (forest : Forest) (name : String) (around : List Tree) (t : Tree) : Prop where
  stands : Tree.Stands forest around t
  clear : Tree.Clear Declares around t
  kind : t.kind = .identifier
  text : t.text = name

/-- A name is used: it is mentioned where it is not overlooked. -/
def Uses (forest : Forest) (name : String) : Prop :=
  ∃ around t, Mentions forest name around t ∧ Tree.Clear (fun _ => Overlooks) around t

/-- **The names of a module** are those it uses. -/
theorem mem_identifiers_moduleFacts {forest : Forest} {name : String} :
    name ∈ (moduleFacts forest).identifiers ↔ Uses forest name := by
  have htop : ∀ t ∈ forest, Scope.Fits {} [] := fun _ _ => iff_of_true rfl (by simp)
  have collected : name ∈ (moduleFacts forest).identifiers ↔
      ∃ t ∈ forest, name ∈ namesWalk.all {} t := by
    rw [moduleFacts, joins_facts.mem_identifiers]
    simp [namesWalk]
  rw [collected, charted_namesWalk.mem_forest_iff htop fun _ => mem_identifiers_ownFacts]
  constructor
  · rintro ⟨around, t, hstands, hclear, hkind, htext⟩
    obtain ⟨hdeclares, hoverlooks⟩ := Tree.clear_or.mp hclear
    exact ⟨around, t, ⟨hstands, hdeclares, hkind, htext⟩, hoverlooks⟩
  · rintro ⟨around, t, ⟨hstands, hdeclares, hkind, htext⟩, hoverlooks⟩
    exact ⟨around, t, hstands, Tree.clear_or.mpr ⟨hdeclares, hoverlooks⟩, hkind, htext⟩

end Python

namespace Script

open Facts (mem_identifiers_append)

/-! ### Standing -/

/-- What a tree is to the trees around it. -/
inductive Standing where
  | ordinary
  | classBody
  | classMember
  /-- A declared variable. -/
  | declared
  /-- A function that is the value of a variable or a field. -/
  | functionValue
  deriving DecidableEq, Repr

def isClass (k : Kind) : Bool := [.classDeclaration, .abstractClass, .classExpression].contains k

/-- The head of a class besides its name and its parameters. -/
def isHeritage (part : Tree) : Bool := part.kind == .heritage || part.kind == .decorator

def isDeclaration (k : Kind) : Bool := k == .lexicalDeclaration || k == .variableDeclaration

def isName (k : Kind) : Bool := k == .identifier || k == .typeIdentifier || k == .shorthand

namespace Standing

/-- Trees that are read by their kind alone, but for the members of classes. -/
def isPlain : Standing → Bool
  | ordinary | classMember => true
  | _                      => false

/-- A part of a variable or a field. -/
def ofValue (t part : Tree) : Standing :=
  if part.role == .value && (functionValue? t).isSome then functionValue else ordinary

def ofPlain (t part : Tree) : Standing :=
  if isClass t.kind && part.role == .body && !isHeritage part then classBody
  else if isDeclaration t.kind && part.kind == .declarator then declared
  else ordinary

/-- The standing of a part of a tree. -/
def ofPart (here : Standing) (t part : Tree) : Standing :=
  match here with
  | ordinary      => ofPlain t part
  | classBody     => classMember
  | classMember   => if t.kind == .field then ofValue t part else ofPlain t part
  | declared      => ofValue t part
  | functionValue => ordinary

end Standing

/-- The standing of a tree below the trees `around`, the nearest first. -/
def standing : List Tree → Tree → Standing
  | [], _             => .ordinary
  | t :: around, part => (standing around t).ofPart t part

def Place.standing : Place → Standing
  | .anywhere    => .ordinary
  | .classBody   => .classBody
  | .classMember => .classMember
  | .variable _  => .declared
  | .callable _  => .functionValue

/-! ### Places that are passed over -/

/-- Parts where a name is declared, imported or passed on. -/
@[mk_iff]
inductive Declares (here : Standing) (t part : Tree) : Prop where
  | imported (hhere : here.isPlain = true) (h : t.kind = .importStatement)
  | passedOn (hhere : here.isPlain = true) (h : t.kind = .exportStatement)
      (hsource : (t.child? .source).isSome = true)
  | functionTitle (hhere : here.isPlain = true)
      (h : t.kind = .functionDeclaration ∨ t.kind = .generatorDeclaration)
      (hpart : part.role = .name)
  | classTitle (hhere : here.isPlain = true) (h : isClass t.kind = true)
      (hhead : isHeritage part = false) (hpart : part.role = .name)
  | interfaceTitle (hhere : here.isPlain = true) (h : t.kind = .interfaceDeclaration)
      (hhead : part.kind ≠ .extendsTypes) (hpart : part.role = .name)
  | enumTitle (hhere : here.isPlain = true) (h : t.kind = .enumDeclaration)
      (hpart : part.role ≠ .body)
  /-- The word and the marks of a declaration. -/
  | mark (hhere : here.isPlain = true) (h : isDeclaration t.kind = true)
      (hpart : part.kind ≠ .declarator)
  | declaredName (hhere : here = .declared) (hpart : part.role ≠ .type ∧ part.role ≠ .value)
      (hname : part.kind = .identifier)
  /-- The name of a function that is a value. -/
  | ownName (hhere : here = .functionValue) (hpart : part.role = .name)

instance (here : Standing) (t part : Tree) : Decidable (Declares here t part) :=
  decidable_of_iff' _ (declares_iff here t part)

/-- Parts that are passed over although names are mentioned in them. -/
inductive Overlooks (here : Standing) (t part : Tree) : Prop where
  /-- The type parameters of a class. -/
  | classParameters (hhere : here.isPlain = true) (h : isClass t.kind = true)
      (hhead : isHeritage part = false) (hpart : part.role ≠ .name ∧ part.role ≠ .body)
  | interfaceParameters (hhere : here.isPlain = true) (h : t.kind = .interfaceDeclaration)
      (hhead : part.kind ≠ .extendsTypes) (hpart : part.role ≠ .name ∧ part.role ≠ .body)
  /-- The name of a method, which may be computed. -/
  | methodName (hhere : here = .classMember) (h : t.kind = .method) (hpart : part.role = .name)
  /-- The decorators and the name of a field. -/
  | fieldHead (hhere : here = .classMember) (h : t.kind = .field)
      (hpart : part.role ≠ .type ∧ part.role ≠ .value)
  | functionFieldType (hhere : here = .classMember) (h : t.kind = .field)
      (hvalue : (functionValue? t).isSome = true) (hpart : part.role = .type)
  /-- A pattern in place of a declared name, with its defaults and its computed keys. -/
  | pattern (hhere : here = .declared) (hpart : part.role ≠ .type ∧ part.role ≠ .value)
      (hname : part.kind ≠ .identifier)

def PassesOver (here : Standing) (t part : Tree) : Prop :=
  Declares here t part ∨ Overlooks here t part

/-! #### By kind -/

section Plain

variable {scope : Scope} {t part : Tree} {here : Standing} (hhere : here.isPlain = true)
include hhere

/-- What is not read of a class besides its name are its parameters. -/
theorem passesOver_class (hclass : isClass t.kind = true) (hhead : isHeritage part = false)
    (hbody : part.role ≠ .body) : PassesOver here t part := by
  by_cases hname : part.role = .name
  · exact Or.inl (.classTitle hhere hclass hhead hname)
  · exact Or.inr (.classParameters hhere hclass hhead ⟨hname, hbody⟩)

theorem passesOver_interface (hkind : t.kind = .interfaceDeclaration)
    (hhead : part.kind ≠ .extendsTypes) (hbody : part.role ≠ .body) : PassesOver here t part := by
  by_cases hname : part.role = .name
  · exact Or.inl (.interfaceTitle hhere hkind hhead hname)
  · exact Or.inr (.interfaceParameters hhere hkind hhead ⟨hname, hbody⟩)

theorem passesOver_of_plain (h : plainPartScope scope t part = none) : PassesOver here t part := by
  unfold plainPartScope at h
  dsimp only at h
  split at h
  case h_1 hkind => exact Or.inl (.imported hhere hkind)
  case h_2 hkind =>
    split at h
    · exact Or.inl (.passedOn hhere hkind ‹_›)
    · cases h
  case h_3 hkind | h_4 hkind | h_5 hkind =>
    have hclass : isClass t.kind = true := by simp [isClass, hkind]
    split at h
    · cases h
    · rename_i hhead
      split at h
      · cases h
      · rename_i hbody
        have hhead : isHeritage part = false := by simpa [isHeritage] using hhead
        exact passesOver_class hhere hclass hhead (by simpa using hbody)
  case h_6 hkind =>
    split at h
    · cases h
    · rename_i hread
      rw [Bool.or_eq_true, not_or, beq_iff_eq, beq_iff_eq] at hread
      exact passesOver_interface hhere hkind hread.1 hread.2
  case h_7 hkind | h_8 hkind =>
    split at h
    · exact Or.inl (.functionTitle hhere (by simp [hkind]) (eq_of_beq ‹_›))
    · cases h
  case h_9 hkind | h_10 hkind =>
    split at h
    · cases h
    · rename_i hpart
      exact Or.inl (.mark hhere (by simp [isDeclaration, hkind]) (by simpa using hpart))
  case h_11 hkind =>
    split at h
    · cases h
    · rename_i hpart
      exact Or.inl (.enumTitle hhere hkind (by simpa using hpart))
  all_goals cases h

end Plain

theorem standing_of_plain {scope s : Scope} {t part : Tree}
    (h : plainPartScope scope t part = some s) : s.place.standing = .ofPlain t part := by
  unfold plainPartScope at h
  grind [Standing.ofPlain, isClass, isDeclaration, isHeritage, Place.standing, Scope.inner,
    Scope.inside, Scope.constant]

theorem passesOver_of_member {scope : Scope} {t part : Tree}
    (h : memberPartScope scope t part = none) : PassesOver .classMember t part := by
  unfold memberPartScope at h
  split at h
  · rename_i hkind
    split at h
    · exact Or.inr (.methodName rfl hkind (eq_of_beq ‹_›))
    · cases h
  · rename_i hkind
    by_cases hvalue : part.role = .value
    · -- the value of a field is entered in any case, as a function or as what it is
      rw [if_pos (beq_of_eq hvalue)] at h
      split at h <;> cases h
    · by_cases htype : part.role = .type
      · refine Or.inr (.functionFieldType rfl hkind ?_ htype)
        simpa [htype, Option.isSome_iff_ne_none] using h
      · exact Or.inr (.fieldHead rfl hkind ⟨htype, hvalue⟩)
  · cases h

theorem passesOver_of_variable {scope : Scope} {isConst : Bool} {t part : Tree}
    (h : variablePartScope scope isConst t part = none) : PassesOver .declared t part := by
  have hpart : part.role ≠ .type ∧ part.role ≠ .value := by
    unfold variablePartScope at h
    grind
  by_cases hname : part.kind = .identifier
  · exact Or.inl (.declaredName rfl hpart hname)
  · exact Or.inr (.pattern rfl hpart hname)

theorem passesOver_of_none {scope : Scope} {t part : Tree} (h : partScope scope t part = none) :
    PassesOver scope.place.standing t part := by
  unfold partScope at h
  split at h <;> rename_i hplace <;> rw [hplace]
  · exact passesOver_of_plain rfl h
  · cases h
  · split at h
    · exact passesOver_of_member h
    · exact passesOver_of_plain rfl h
  · exact passesOver_of_variable h
  · split at h
    · exact Or.inl (.ownName rfl (eq_of_beq ‹_›))
    · cases h

/-- The kinds of members of a class that are read in a way of their own. -/
def isMember (k : Kind) : Bool := [.method, .field, .abstractMethod, .methodSignature].contains k

theorem partScope_of_isPlain {scope : Scope} {t part : Tree}
    (hplain : scope.place.standing.isPlain = true) (hmember : isMember t.kind = false) :
    partScope scope t part = plainPartScope scope t part := by
  cases hplace : scope.place with
  | anywhere => simp only [partScope, hplace]
  | classMember =>
      simp only [partScope, hplace]
      exact if_neg (by simpa [isMember] using hmember)
  | classBody | «variable» | callable =>
      rw [hplace] at hplain
      cases hplain

theorem partScope_of_classMember {scope : Scope} {t part : Tree}
    (hhere : scope.place.standing = .classMember) (hmember : isMember t.kind = true) :
    partScope scope t part = memberPartScope scope t part := by
  cases hplace : scope.place with
  | classMember =>
      simp only [partScope, hplace]
      exact if_pos hmember
  | anywhere | classBody | «variable» | callable =>
      rw [hplace] at hhere
      cases hhere

theorem none_of_declares {scope : Scope} {t part : Tree}
    (h : Declares scope.place.standing t part) : partScope scope t part = none := by
  cases h with
  | imported hhere h =>
      rw [partScope_of_isPlain hhere (by simp [isMember, h])]
      simp [plainPartScope, h]
  | passedOn hhere h hsource =>
      rw [partScope_of_isPlain hhere (by simp [isMember, h])]
      simp [plainPartScope, h, hsource]
  | functionTitle hhere h hpart =>
      rcases h with h | h <;>
        simp [partScope_of_isPlain hhere, isMember, h, plainPartScope, hpart]
  | classTitle hhere h hhead hpart =>
      grind [partScope_of_isPlain, isMember, isClass, isHeritage, plainPartScope]
  | interfaceTitle hhere h hhead hpart =>
      simp [partScope_of_isPlain hhere, isMember, h, plainPartScope, hhead, hpart]
  | enumTitle hhere h hpart =>
      simp [partScope_of_isPlain hhere, isMember, h, plainPartScope, hpart]
  | mark hhere h hpart =>
      grind [partScope_of_isPlain, isMember, isDeclaration, plainPartScope]
  | declaredName hhere hpart hname =>
      grind [partScope, Place.standing, variablePartScope]
  | ownName hhere hpart =>
      grind [partScope, Place.standing]

theorem none_of_overlooks {scope : Scope} {t part : Tree}
    (h : Overlooks scope.place.standing t part) : partScope scope t part = none := by
  cases h with
  | classParameters hhere h hhead hpart =>
      grind [partScope_of_isPlain, isMember, isClass, isHeritage, plainPartScope]
  | interfaceParameters hhere h hhead hpart =>
      simp [partScope_of_isPlain hhere, isMember, h, plainPartScope, hhead, hpart]
  | methodName hhere h hpart =>
      simp [partScope_of_classMember hhere, isMember, h, memberPartScope, hpart]
  | fieldHead hhere h hpart =>
      simp [partScope_of_classMember hhere, isMember, h, memberPartScope, hpart]
  | functionFieldType hhere h hvalue hpart =>
      simp [partScope_of_classMember hhere, isMember, h, memberPartScope, hpart,
        Option.isSome_iff_ne_none.mp hvalue]
  | pattern hhere hpart hname =>
      grind [partScope, Place.standing, variablePartScope]

theorem standing_of_partScope {scope s : Scope} {t part : Tree}
    (h : partScope scope t part = some s) :
    s.place.standing = scope.place.standing.ofPart t part := by
  unfold partScope at h
  split at h <;> rename_i hplace <;> rw [hplace]
  · exact standing_of_plain h
  · cases h
    rfl
  · split at h
    · rename_i hmember
      unfold memberPartScope at h
      grind [Place.standing, Standing.ofPart, Standing.ofValue, Standing.ofPlain, isClass,
        isDeclaration, Scope.inner, Scope.inside, Scope.constant, Scope.valueOf]
    · rename_i hmember
      -- of the members, only fields give their parts a standing
      have hfield : ¬ (t.kind == .field) = true := by simp_all
      refine (standing_of_plain h).trans ?_
      exact (if_neg hfield).symm
  · unfold variablePartScope at h
    grind [Place.standing, Standing.ofPart, Standing.ofValue, Scope.inner, Scope.constant,
      Scope.valueOf]
  · split at h
    · cases h
    · cases h
      rfl

/-- The standing of a place is told by the scope. -/
def Scope.Fits (s : Scope) (around : List Tree) (t : Tree) : Prop :=
  s.place.standing = Script.standing around t

theorem Scope.Fits.part {scope s : Scope} {around : List Tree} {t part : Tree}
    (hfits : scope.Fits around t) (h : partScope scope t part = some s) :
    s.Fits (t :: around) part := by
  have hpart := standing_of_partScope h
  rwa [hfits] at hpart

/-! ### Scripts -/

theorem identifiers_plainFacts (scope : Scope) (t : Tree) :
    (plainFacts scope t).identifiers = if isName t.kind then [t.text] else [] := by
  unfold plainFacts
  grind [importFacts, reExportFacts, clause, freeFunction, callFacts, instantiationFacts, ifFacts,
    switchFacts, writeFacts, isName]

theorem memberMethods_of_isName {t : Tree} (h : isName t.kind = true) : memberMethods t = [] := by
  unfold memberMethods
  grind [isName]

/-- Only a name states a name, and only where trees are read by their kind. -/
theorem mem_identifiers_ownFacts {name : String} {scope : Scope} {t : Tree} :
    name ∈ (ownFacts scope t).identifiers ↔
      scope.place.standing.isPlain = true ∧ isName t.kind = true ∧ t.text = name := by
  unfold ownFacts
  grind [identifiers_plainFacts, memberMethods_of_isName, Place.standing, Standing.isPlain,
    freeFunction, isName]

/-- A tree that makes a class or an interface of its own is no name. -/
theorem isName_of_ownClass? {scope : Scope} {t : Tree} {methods : List FunctionDef} {c : ClassDef}
    (h : ownClass? scope t methods = some c) : isName t.kind = false := by
  unfold ownClass? at h
  grind [isName]

theorem mem_identifiers_facts {name : String} {scope : Scope} {t : Tree} :
    name ∈ (facts scope t).identifiers ↔ name ∈ (ownFacts scope t).identifiers ∨
      ∃ part ∈ t.children, ∃ s,
        partScope scope t part = some s ∧ name ∈ (facts s part).identifiers := by
  cases t with
  | leaf kind role gap text line => simp [facts, Tree.children]
  | node kind role first rest =>
      have inside : name ∈ (factsAll (partScope scope (.node kind role first rest))
          (first :: rest)).identifiers ↔ _ := joins_facts.mem_identifiers _ _
      rw [facts]
      split
      · rename_i hclass
        have hown : name ∉ (ownFacts scope (.node kind role first rest)).identifiers := by
          rw [mem_identifiers_ownFacts, isName_of_ownClass? hclass]
          simp
        exact inside.trans (or_iff_right hown).symm
      · rw [mem_identifiers_append]
        exact or_congr_right inside

/-- The walk that collects the names. -/
def namesWalk : Tree.Walk Kind Scope String where
  enter := partScope
  own scope t := (ownFacts scope t).identifiers
  all scope t := (facts scope t).identifiers
  mem_all := mem_identifiers_facts

/-- A scope tells the standing of a place, and this decides which parts are passed over. -/
theorem charted_namesWalk : namesWalk.Charted Scope.Fits
    fun around t part => PassesOver (standing around t) t part where
  none_iff hfits := by
    rw [← hfits]
    exact ⟨passesOver_of_none, fun h => h.elim none_of_declares none_of_overlooks⟩
  agrees_part hfits h := hfits.part h

/-- A name is mentioned: it stands outside the parts that declare names. -/
structure Mentions (forest : Forest) (name : String) (around : List Tree) (t : Tree) : Prop where
  stands : Tree.Stands forest around t
  clear : Tree.Clear (fun around t => Declares (standing around t) t) around t
  /-- The name itself is no body of a class, no declared variable and no function. -/
  plain : (standing around t).isPlain = true
  kind : isName t.kind = true
  text : t.text = name

/-- A name is used: it is mentioned where it is not overlooked. -/
def Uses (forest : Forest) (name : String) : Prop :=
  ∃ around t, Mentions forest name around t ∧
    Tree.Clear (fun around t => Overlooks (standing around t) t) around t

/-- **The names of a script** are those it uses. -/
theorem mem_identifiers_scriptFacts {forest : Forest} {name : String} :
    name ∈ (scriptFacts forest).identifiers ↔ Uses forest name := by
  have htop : ∀ t ∈ forest, Scope.Fits { mutables := scriptMutables forest } [] t :=
    fun _ _ => rfl
  have collected : name ∈ (scriptFacts forest).identifiers ↔
      ∃ t ∈ forest, name ∈ namesWalk.all { mutables := scriptMutables forest } t := by
    rw [scriptFacts, joins_facts.mem_identifiers]
    simp [namesWalk]
  have hown : ∀ {a : String} {s : Scope} {around : List Tree} {t : Tree}, s.Fits around t →
      (a ∈ namesWalk.own s t ↔
        (standing around t).isPlain = true ∧ isName t.kind = true ∧ t.text = a) :=
    fun hfits => hfits ▸ mem_identifiers_ownFacts
  rw [collected, charted_namesWalk.mem_forest_iff htop hown]
  constructor
  · rintro ⟨around, t, hstands, hclear, hplain, hkind, htext⟩
    obtain ⟨hdeclares, hoverlooks⟩ := Tree.clear_or.mp hclear
    exact ⟨around, t, ⟨hstands, hdeclares, hplain, hkind, htext⟩, hoverlooks⟩
  · rintro ⟨around, t, ⟨hstands, hdeclares, hplain, hkind, htext⟩, hoverlooks⟩
    exact ⟨around, t, hstands, Tree.clear_or.mpr ⟨hdeclares, hoverlooks⟩, hplain, hkind, htext⟩

end Script

/-! ### Outlines -/

namespace Family

/-- A name is used: it is mentioned where it is not overlooked. -/
def Uses : (family : Family) → family.Forest → String → Prop
  | python => Python.Uses
  | script => Script.Uses

/-- **The names in an outline** are those that the syntax trees use. -/
theorem mem_identifiers {family : Family} {file : Path} {language : Language} {text : String}
    {forest : family.Forest} {name : String} :
    name ∈ (family.outlineOf file language text forest).identifiers ↔
      family.Uses forest name := by
  rw [outlineOf, Facts.mem_identifiers_outline]
  cases family with
  | python => exact Python.mem_identifiers_moduleFacts
  | script => exact Script.mem_identifiers_scriptFacts

end Family

end ArchReview

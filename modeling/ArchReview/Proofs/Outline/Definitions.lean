import ArchReview.Proofs.Grammar.PythonRules
import ArchReview.Proofs.Outline.Names
import ArchReview.Proofs.Outline.Spans

/-!
# Records of Python definitions

The definitions of a module are its functions and its classes.  Where a function is recorded is told
by the nearest definition around it: as a method of that class, nowhere if it is a function, and
among the functions of the module if there is none.

**Each definition in its place** (`outline_definitions`).  An outline has one record for each class,
behind those of the classes inside it; its methods are the records of the functions nearest to the
class, in order.  It has one record for each function outside all definitions.  Every function of
the module is in one of these places or nearest to one other function.

The facts are collected from the parts of a tree, with a scope that tells where the parts lie
(`facts_recorded`).  This is right as far as definitions stand only where scopes are made for them,
so it is said of upright trees, and the trees of every module that is read are upright.

A walk may as well keep the classes that are open on a stack, give each method to the innermost one
and record a class when it is closed.  It finds the same, and no class stays open (`walk_eq`).
-/

namespace ArchReview.Python

/-! ### Places of definitions -/

def isFunction (t : Tree) : Bool := t.kind == .functionDefinition

def isClass (t : Tree) : Bool := t.kind == .classDefinition

def isDefinition (t : Tree) : Bool := t.kind.isDefinition

theorem isDefinition_eq (t : Tree) : isDefinition t = (isFunction t || isClass t) := rfl

theorem isClass_eq_false {t : Tree} (h : isFunction t = true) : isClass t = false := by
  simp_all [isFunction, isClass]

theorem isFunction_eq_false {t : Tree} (h : isClass t = true) : isFunction t = false := by
  simp_all [isFunction, isClass]

/-- The functions of a forest that no definition stands around. -/
def freeFunctions (forest : Forest) : List Tree :=
  (Tree.outermostAll isDefinition forest).filter isFunction

/-- The functions to which `t` is the nearest definition. -/
def ownFunctions (t : Tree) : List Tree := (t.nearest isDefinition).filter isFunction

theorem filter_isDefinition_perm (forest : Forest) :
    (forest.filter isDefinition).Perm (forest.filter isClass ++ forest.filter isFunction) := by
  have hclass : (fun t => isClass t && isDefinition t) = isClass := by
    funext t
    cases h : isClass t <;> simp [isDefinition_eq, h]
  have hfunction : (fun t => (!isClass t) && isDefinition t) = isFunction := by
    funext t
    cases h : isFunction t with
    | true => simp [isDefinition_eq, h, isClass_eq_false h]
    | false => cases hc : isClass t <;> simp [isDefinition_eq, h, hc]
  have parts := (List.filter_append_perm isClass (forest.filter isDefinition)).symm
  rwa [List.filter_filter, List.filter_filter, hclass, hfunction] at parts

/-- **Every function is in one place**: outside all definitions, or nearest to one class or to one
function. -/
theorem filter_isFunction_perm (forest : Forest) :
    ((Tree.subtreesAll forest).filter isFunction).Perm (freeFunctions forest ++
      (((Tree.subtreesAll forest).filter isClass).flatMap ownFunctions ++
        ((Tree.subtreesAll forest).filter isFunction).flatMap ownFunctions)) := by
  have hfunction : (fun t => isFunction t && isDefinition t) = isFunction := by
    funext t
    cases h : isFunction t <;> simp [isDefinition_eq, h]
  have places := (Tree.filter_subtreesAll_perm isDefinition forest).filter isFunction
  rw [List.filter_filter, hfunction, List.filter_append, List.filter_flatMap] at places
  refine places.trans (List.Perm.append_left _ ?_)
  rw [← List.flatMap_append]
  exact (filter_isDefinition_perm _).flatMap_right ownFunctions

/-! ### Records -/

/-- `f` is the record of the function `t`, as a method or outside all definitions. -/
def RecordsFunction (isMethod : Bool) (t : Tree) (f : FunctionDef) : Prop :=
  ∃ scope : Scope, scope.inClassBody = isMethod ∧ (isMethod = true ∨ scope.function = none) ∧
    f = functionRecord scope t

/-- `c` is the record of the class `t`, and its methods are those of the functions of `t`. -/
structure RecordsClass (t : Tree) (c : ClassDef) : Prop where
  record : ∃ scope, c = classRecord scope t c.methods
  methods : List.Forall₂ (RecordsFunction true) (ownFunctions t) c.methods

/-- The definitions of a forest are recorded, each in its place. -/
structure RecordsDefinitions (forest : Forest) (classes : List ClassDef)
    (functions : List FunctionDef) : Prop where
  /-- One record for each class, behind those of the classes inside it. -/
  classes : List.Forall₂ RecordsClass ((Tree.subtreesAll forest).filter isClass) classes
  /-- One record for each function outside all definitions. -/
  functions : List.Forall₂ (RecordsFunction false) (freeFunctions forest) functions
  /-- Every function is outside all definitions, or nearest to one class or to one function. -/
  placed : ((Tree.subtreesAll forest).filter isFunction).Perm (freeFunctions forest ++
    (((Tree.subtreesAll forest).filter isClass).flatMap ownFunctions ++
      ((Tree.subtreesAll forest).filter isFunction).flatMap ownFunctions))

/-! ### Facts -/

@[simp]
theorem classes_append (f g : Facts) : (f ++ g).classes = f.classes ++ g.classes := rfl

@[simp]
theorem methods_append (f g : Facts) : (f ++ g).methods = f.methods ++ g.methods := rfl

@[simp]
theorem functions_append (f g : Facts) : (f ++ g).functions = f.functions ++ g.functions := rfl

theorem append_empty (f : Facts) : f ++ {} = f := by
  show Facts.append f {} = f
  simp [Facts.append]

theorem empty_append (f : Facts) : {} ++ f = f := rfl

theorem append_assoc (f g h : Facts) : f ++ g ++ h = f ++ (g ++ h) := by
  show Facts.append (Facts.append f g) h = Facts.append f (Facts.append g h)
  simp [Facts.append]

/-- No function or class is stated. -/
def Silent (f : Facts) : Prop := f.classes = [] ∧ f.methods = [] ∧ f.functions = []

theorem ownFacts_function {scope : Scope} {t : Tree} (h : isFunction t = true) :
    ownFacts scope t = functionFacts scope t := by
  simp [ownFacts, eq_of_beq h]

/-- Only a function states one by itself; a class is stated with its parts. -/
theorem silent_ownFacts (scope : Scope) {t : Tree} (h : isFunction t = false) :
    Silent (ownFacts scope t) := by
  unfold ownFacts Silent
  split
  case h_3 hkind => simp [isFunction, hkind] at h
  case h_7 => unfold callFacts; grind
  case h_8 => unfold ifFacts; grind
  case h_9 => unfold matchFacts; grind
  case h_10 => unfold globalFacts; grind
  all_goals exact ⟨rfl, rfl, rfl⟩

theorem facts_of_not_class {scope : Scope} {t : Tree} (h : isClass t = false) :
    facts scope t = ownFacts scope t ++ factsAll (partScope scope t) t.children := by
  cases t with
  | leaf => exact (append_empty _).symm
  | node kind role first rest =>
      rw [facts]
      exact if_neg (Bool.eq_false_iff.mp h)

theorem facts_of_class {scope : Scope} {t : Tree} (h : isClass t = true)
    (hparts : t.children ≠ []) :
    facts scope t = classFacts scope t (factsAll (partScope scope t) t.children) := by
  cases t with
  | leaf => exact absurd rfl hparts
  | node kind role first rest =>
      rw [facts]
      exact if_pos h

/-! ### What is found in a forest -/

/-- The functions that no definition stands around, if they are looked for. -/
def sought (flag : Bool) (forest : Forest) : List Tree :=
  (freeFunctions forest).filter fun _ => flag

theorem sought_true (forest : Forest) : sought true forest = freeFunctions forest :=
  List.filter_true _

theorem sought_false (forest : Forest) : sought false forest = [] :=
  List.filter_false _

theorem sought_cons (flag : Bool) (t : Tree) (forest : Forest) :
    sought flag (t :: forest) = sought flag [t] ++ sought flag forest := by
  simp [sought, freeFunctions, Tree.outermostAll]

theorem sought_of_not_definition (flag : Bool) {t : Tree} (h : isDefinition t = false) :
    sought flag [t] = sought flag t.children := by
  simp [sought, freeFunctions, Tree.outermostAll, Tree.outermost_eq, h]

theorem sought_definition (flag : Bool) {t : Tree} (h : isDefinition t = true) :
    sought flag [t] = [t].filter fun u => isFunction u && flag := by
  simp [sought, freeFunctions, Tree.outermostAll, Tree.outermost_eq, h, List.filter_filter,
    Bool.and_comm]

theorem classes_singleton (t : Tree) : (Tree.subtreesAll [t]).filter isClass =
    (Tree.subtreesAll t.children).filter isClass ++ [t].filter isClass := by
  simp only [Tree.subtreesAll, Tree.subtrees_eq, List.append_nil, List.filter_append]

/-- No definition is around what lies in a scope. -/
def Scope.isFree (s : Scope) : Bool := !s.inClassBody && s.function.isNone

/-- What is found in a forest: the records of its classes, and those of the functions that no
definition in it stands around.  They are methods if the forest lies in a class, and functions if
no definition is around it either. -/
structure Recorded (inClass free : Bool) (forest : Forest) (found : Facts) : Prop where
  classes : List.Forall₂ RecordsClass ((Tree.subtreesAll forest).filter isClass) found.classes
  methods : List.Forall₂ (RecordsFunction true) (sought inClass forest) found.methods
  functions : List.Forall₂ (RecordsFunction false) (sought free forest) found.functions

namespace Recorded

variable {inClass free : Bool} {t : Tree} {forest : Forest} {found rest : Facts}

theorem nil : Recorded inClass free [] {} := by
  constructor <;> simp [Tree.subtreesAll, sought, freeFunctions, Tree.outermostAll]

theorem cons (h : Recorded inClass free [t] found) (hrest : Recorded inClass free forest rest) :
    Recorded inClass free (t :: forest) (found ++ rest) := by
  constructor
  · simpa [Tree.subtreesAll] using List.rel_append h.classes hrest.classes
  · rw [sought_cons]
    exact List.rel_append h.methods hrest.methods
  · rw [sought_cons]
    exact List.rel_append h.functions hrest.functions

/-- There is nothing to find in a tree without definitions. -/
theorem iff_of_plain (h : Plain t) : Recorded inClass free [t] found ↔ Silent found := by
  have none : ∀ u ∈ Tree.subtreesAll [t], isDefinition u = false := fun u hu => by
    rw [Tree.subtreesAll, Tree.subtreesAll, List.append_nil] at hu
    exact h u hu
  have hclasses : (Tree.subtreesAll [t]).filter isClass = [] :=
    List.filter_eq_nil_iff.mpr fun u hu => by
      simp [(Bool.or_eq_false_iff.mp (none u hu)).2, isClass]
  have hsought : ∀ flag, sought flag [t] = [] := fun flag => by
    have places := Tree.filter_subtreesAll_perm isDefinition [t]
    rw [List.filter_eq_nil_iff.mpr fun u hu => by simp [none u hu]] at places
    have outermost := (List.append_eq_nil_iff.mp places.symm.eq_nil).1
    rw [sought, freeFunctions, outermost, List.filter_nil, List.filter_nil]
  constructor
  · rintro ⟨h₁, h₂, h₃⟩
    rw [hclasses] at h₁
    rw [hsought] at h₂ h₃
    exact ⟨List.forall₂_nil_left_iff.mp h₁, List.forall₂_nil_left_iff.mp h₂,
      List.forall₂_nil_left_iff.mp h₃⟩
  · rintro ⟨h₁, h₂, h₃⟩
    constructor
    · rw [hclasses, h₁]
      exact .nil
    · rw [hsought, h₂]
      exact .nil
    · rw [hsought, h₃]
      exact .nil

/-- A tree that is no definition adds nothing to what is found in its parts. -/
theorem around {own : Facts} (ht : isDefinition t = false) (hown : Silent own)
    (h : Recorded inClass free t.children found) : Recorded inClass free [t] (own ++ found) := by
  obtain ⟨hclasses, hmethods, hfunctions⟩ := hown
  have hclass : isClass t = false := (Bool.or_eq_false_iff.mp ht).2
  constructor
  · simpa [classes_singleton, hclass, hclasses] using h.classes
  · simpa [sought_of_not_definition _ ht, hmethods] using h.methods
  · simpa [sought_of_not_definition _ ht, hfunctions] using h.functions

/-- A function is recorded in its place, and the functions inside it are not. -/
theorem function (scope : Scope) (ht : isFunction t = true)
    (h : Recorded false false t.children found) :
    Recorded scope.inClassBody scope.isFree [t] (functionFacts scope t ++ found) := by
  have hdefinition : isDefinition t = true := by simp [isDefinition_eq, ht]
  have hmethods : found.methods = [] := by simpa [sought_false] using h.methods
  have hfunctions : found.functions = [] := by simpa [sought_false] using h.functions
  unfold functionFacts Scope.isFree
  -- what is inside has no methods and no functions, so each list is the function itself or empty
  constructor
  · simpa [classes_singleton, isClass_eq_false ht, apply_ite Facts.classes] using h.classes
  · rw [sought_definition _ hdefinition, methods_append, hmethods]
    cases hclass : scope.inClassBody <;> cases scope.function.isNone <;> simp [ht]
    all_goals exact ⟨scope, hclass, Or.inl rfl, rfl⟩
  · rw [sought_definition _ hdefinition, functions_append, hfunctions]
    cases hclass : scope.inClassBody <;> cases hnone : scope.function.isNone <;> simp [ht]
    exact ⟨scope, hclass, Or.inr (Option.isNone_iff_eq_none.mp hnone), rfl⟩

/-- A class is recorded behind the classes inside it, with its functions as methods. -/
theorem ofClass (scope : Scope) (ht : isClass t = true)
    (h : Recorded true false t.children found) :
    Recorded inClass free [t] (classFacts scope t found) := by
  have hdefinition : isDefinition t = true := by simp [isDefinition_eq, ht]
  have hfunctions : found.functions = [] := by simpa [sought_false] using h.functions
  have hmethods : (classRecord scope t found.methods).methods = found.methods :=
    (ClassDef.addMethods_eq _ _).2.2
  constructor
  · simp only [classes_singleton, List.filter_cons_of_pos ht, List.filter_nil, classFacts]
    refine List.rel_append h.classes (.cons ⟨⟨scope, ?_⟩, ?_⟩ .nil) <;> rw [hmethods]
    have own := h.methods
    rwa [sought_true] at own
  · simp [sought_definition _ hdefinition, isFunction_eq_false ht, classFacts]
  · simpa [sought_definition _ hdefinition, isFunction_eq_false ht, classFacts] using hfunctions

end Recorded

theorem recorded_factsAll {inClass free : Bool} {place : Tree → Option Scope} {forest : Forest}
    (h : ∀ t ∈ forest, Recorded inClass free [t] ((place t).elim {} fun s => facts s t)) :
    Recorded inClass free forest (factsAll place forest) := by
  induction forest with
  | nil => exact .nil
  | cons t ts ih =>
      obtain ⟨ht, hts⟩ := List.forall_mem_cons.mp h
      exact ht.cons (ih hts)

/-! ### Scopes -/

/-- A part that may hold definitions is entered.  Below a tree that is no definition it lies where
the tree does. -/
theorem exists_partScope {scope : Scope} {t part : Tree} (ht : isDefinition t = false)
    (h : bars t.kind part.role = false) : ∃ s, partScope scope t part = some s ∧
      s.inClassBody = scope.inClassBody ∧ s.isFree = scope.isFree := by
  unfold partScope
  unfold bars at h
  unfold isDefinition Kind.isDefinition at ht
  grind [Scope.inner, Scope.isFree]

theorem exists_partScope_function {scope : Scope} {t part : Tree} (ht : isFunction t = true)
    (h : bars t.kind part.role = false) : ∃ s, partScope scope t part = some s ∧
      s.inClassBody = false ∧ s.isFree = false := by
  have hkind := eq_of_beq ht
  have hrole : part.role = .body := by simpa [bars, hkind] using h
  simp [partScope, hkind, hrole, Scope.isFree]

theorem exists_partScope_class {scope : Scope} {t part : Tree} (ht : isClass t = true)
    (h : bars t.kind part.role = false) : ∃ s, partScope scope t part = some s ∧
      s.inClassBody = true ∧ s.isFree = false := by
  have hkind := eq_of_beq ht
  have hrole : part.role = .body := by simpa [bars, hkind] using h
  simp [partScope, hkind, hrole, Scope.isFree]

/-- What is found in the parts of a tree.  Parts that are not entered, or in the scope of another
place, hold no definitions. -/
theorem recorded_parts (scope : Scope) {t : Tree} {inClass free : Bool} (h : Upright t)
    (hparts : ∀ part ∈ t.children, ∀ s : Scope,
      Recorded s.inClassBody s.isFree [part] (facts s part))
    (hplace : ∀ part, bars t.kind part.role = false → ∃ s, partScope scope t part = some s ∧
      s.inClassBody = inClass ∧ s.isFree = free) :
    Recorded inClass free t.children (factsAll (partScope scope t) t.children) := by
  refine recorded_factsAll fun part hpart => ?_
  cases hbars : bars t.kind part.role with
  | false =>
      obtain ⟨s, hs, rfl, rfl⟩ := hplace part hbars
      rw [hs]
      exact hparts part hpart s
  | true =>
      have hplain : Plain part := (upright_iff.mp h).1.barred part hpart hbars
      rw [Recorded.iff_of_plain hplain]
      cases partScope scope t part with
      | none => exact ⟨rfl, rfl, rfl⟩
      | some s => exact (Recorded.iff_of_plain hplain).mp (hparts part hpart s)

/-- **What is found in an upright tree**, in any scope. -/
theorem facts_recorded {t : Tree} (h : Upright t) (scope : Scope) :
    Recorded scope.inClassBody scope.isFree [t] (facts scope t) := by
  induction t using Tree.induction_parts generalizing scope with
  | step t ih =>
      obtain ⟨hproper, hupright⟩ := upright_iff.mp h
      have hparts := fun part hpart => ih part hpart (hupright part hpart)
      cases hclass : isClass t with
      | true =>
          -- a token is no class, so there are parts
          have hne : t.children ≠ [] := fun hnil => by
            have token : isDefinition t = false := hproper.token hnil
            rw [isDefinition_eq, hclass, Bool.or_true] at token
            cases token
          have inside := recorded_parts scope h hparts fun _ => exists_partScope_class hclass
          rw [facts_of_class hclass hne]
          exact inside.ofClass scope hclass
      | false =>
          rw [facts_of_not_class hclass]
          cases ht : isFunction t with
          | true =>
              have inside := recorded_parts scope h hparts fun _ => exists_partScope_function ht
              rw [ownFacts_function ht]
              exact inside.function scope ht
          | false =>
              have hnone : isDefinition t = false := by rw [isDefinition_eq, hclass, ht]; rfl
              have inside := recorded_parts scope h hparts fun _ => exists_partScope hnone
              exact inside.around hnone (silent_ownFacts scope ht)

theorem moduleFacts_recorded {forest : Forest} (h : Grammar.Each Upright forest) :
    RecordsDefinitions forest (moduleFacts forest).classes (moduleFacts forest).functions := by
  have recorded : Recorded false true forest (moduleFacts forest) :=
    recorded_factsAll fun t ht => facts_recorded (h t ht) {}
  have functions := recorded.functions
  rw [sought_true] at functions
  exact ⟨recorded.classes, functions, filter_isFunction_perm forest⟩

/-! ### Open classes -/

/-- What has been found on a walk, and the classes that are open, the innermost first. -/
structure Walker where
  found : Facts := {}
  stack : List ClassDef := []

namespace Walker

/-- Gives methods to the innermost open class. -/
def addMethods (methods : List FunctionDef) : List ClassDef → List ClassDef
  | []      => []
  | c :: cs => c.addMethods methods :: cs

/-- Records a function: directly in a class as a method of the innermost one, else as a function if
there is none around it. -/
def addFunction (scope : Scope) (f : FunctionDef) (w : Walker) : Walker :=
  if scope.inClassBody && !w.stack.isEmpty then { w with stack := addMethods [f] w.stack }
  else if scope.function.isNone then { w with found := w.found ++ { functions := [f] } }
  else w

/-- Records what a tree says by itself. -/
def note (scope : Scope) (t : Tree) (w : Walker) : Walker :=
  if isFunction t then w.addFunction scope (functionRecord scope t)
  else { w with found := w.found ++ ownFacts scope t }

/-- Opens a class, with no methods yet. -/
def push (scope : Scope) (t : Tree) (w : Walker) : Walker :=
  { w with stack := classRecord scope t [] :: w.stack }

def mark (isInterface : Bool) (c : ClassDef) : ClassDef := { c with isInterface }

/-- A class at its end: with an abstract method it is an interface. -/
def close (c : ClassDef) : ClassDef :=
  mark (c.isInterface || c.methods.any fun m => m.isAbstract) c

/-- Closes the innermost class and records it. -/
def pop (w : Walker) : Walker :=
  match w.stack with
  | []      => w
  | c :: cs => { found := w.found ++ { classes := [close c] }, stack := cs }

mutual

def visit (scope : Scope) : Tree → Walker → Walker
  | .leaf kind role gap text line, w => w.note scope (.leaf kind role gap text line)
  | .node kind role first rest, w    =>
    let t := Tree.node kind role first rest
    let place := partScope scope t
    let parts := fun w => visitAll place rest ((place first).elim w fun s => visit s first w)
    if kind == .classDefinition then (parts (w.push scope t)).pop else parts (w.note scope t)

def visitAll (place : Tree → Option Scope) : List Tree → Walker → Walker
  | [], w      => w
  | t :: ts, w => visitAll place ts ((place t).elim w fun s => visit s t w)

end

/-- The walk over a module. -/
def walk (forest : Forest) : Walker := visitAll (fun _ => some {}) forest {}

/-- Facts without the functions that belong to the class around them. -/
def unowned (f : Facts) : Facts := { f with methods := [] }

/-- A walker that has found some facts: the methods are with the innermost class. -/
def absorb (w : Walker) (f : Facts) : Walker :=
  ⟨w.found ++ unowned f, addMethods f.methods w.stack⟩

theorem addMethods_nil (stack : List ClassDef) : addMethods [] stack = stack := by
  cases stack <;> rfl

theorem addMethods_append (ms ns : List FunctionDef) (stack : List ClassDef) :
    addMethods (ms ++ ns) stack = addMethods ns (addMethods ms stack) := by
  cases stack <;> simp [addMethods, ClassDef.addMethods]

theorem addMethods_ne_nil {ms : List FunctionDef} {stack : List ClassDef} (h : stack ≠ []) :
    addMethods ms stack ≠ [] := by
  cases stack with
  | nil => exact h
  | cons c cs => exact List.cons_ne_nil _ _

theorem unowned_append (f g : Facts) : unowned (f ++ g) = unowned f ++ unowned g := rfl

theorem unowned_of_methods {f : Facts} (h : f.methods = []) : unowned f = f := by
  rw [unowned, ← h]

theorem absorb_empty (w : Walker) : w.absorb {} = w := by
  rw [absorb, addMethods_nil]
  exact congrArg (Walker.mk · w.stack) (append_empty w.found)

theorem absorb_append (w : Walker) (f g : Facts) : w.absorb (f ++ g) = (w.absorb f).absorb g := by
  simp only [absorb, unowned_append, methods_append, addMethods_append, append_assoc]

theorem absorb_of_methods {f : Facts} (h : f.methods = []) (w : Walker) :
    w.absorb f = { w with found := w.found ++ f } := by
  rw [absorb, unowned_of_methods h, h, addMethods_nil]

theorem note_eq {scope : Scope} {t : Tree} {w : Walker}
    (h : scope.inClassBody = true → w.stack ≠ []) :
    w.note scope t = w.absorb (ownFacts scope t) := by
  unfold note
  cases hfunction : isFunction t with
  | false =>
      obtain ⟨-, hmethods, -⟩ := silent_ownFacts scope hfunction
      rw [absorb_of_methods hmethods]
      rfl
  | true =>
      rw [ownFacts_function hfunction, if_pos rfl, addFunction, functionFacts]
      cases hclass : scope.inClassBody with
      | true =>
          have hstack : w.stack.isEmpty = false := by simpa using h hclass
          rw [hstack]
          exact congrArg (Walker.mk · _) (append_empty w.found).symm
      | false =>
          cases hnone : scope.function.isNone with
          | true => exact (absorb_of_methods rfl w).symm
          | false => exact (absorb_empty w).symm

theorem addMethods_mark (b : Bool) (c : ClassDef) (methods : List FunctionDef) :
    (mark b c).addMethods methods = mark b (c.addMethods methods) := by
  induction methods generalizing c with
  | nil => rfl
  | cons m ms ih => exact ih (c.addMethod m)

theorem isInterface_addMethods (c : ClassDef) (methods : List FunctionDef) :
    (c.addMethods methods).isInterface = c.isInterface := by
  have marked := congrArg ClassDef.isInterface (addMethods_mark c.isInterface c methods)
  exact marked

/-- A class that is opened without methods and then given them ends as its record. -/
theorem close_addMethods (scope : Scope) (t : Tree) (methods : List FunctionDef) :
    close ((classRecord scope t []).addMethods methods) = classRecord scope t methods := by
  rw [close, isInterface_addMethods, (ClassDef.addMethods_eq _ methods).2.2, ← addMethods_mark]
  simp [classRecord, ClassDef.addMethods, mark]

theorem pop_push (scope : Scope) (t : Tree) (w : Walker) (f : Facts) :
    ((w.push scope t).absorb f).pop = w.absorb (classFacts scope t f) := by
  rw [absorb_of_methods (show (classFacts scope t f).methods = [] from rfl)]
  simp only [push, absorb, addMethods, pop, close_addMethods, append_assoc]
  congr 2
  show Facts.append _ _ = _
  simp [Facts.append, unowned, classFacts]

theorem visitAll_eq (place : Tree → Option Scope) {ts : List Tree}
    (hvisit : ∀ t ∈ ts, ∀ scope w, (scope.inClassBody = true → w.stack ≠ []) →
      visit scope t w = w.absorb (facts scope t)) (w : Walker)
    (hplace : ∀ t ∈ ts, ∀ s, place t = some s → s.inClassBody = true → w.stack ≠ []) :
    visitAll place ts w = w.absorb (factsAll place ts) := by
  induction ts generalizing w with
  | nil => exact (absorb_empty w).symm
  | cons t ts ih =>
      obtain ⟨ht, hts⟩ := List.forall_mem_cons.mp hvisit
      obtain ⟨hp, hps⟩ := List.forall_mem_cons.mp hplace
      rw [visitAll, factsAll, absorb_append]
      cases hscope : place t with
      | none =>
          simp only [Option.elim, absorb_empty]
          exact ih hts w hps
      | some s =>
          simp only [Option.elim]
          rw [ht s w (hp s hscope)]
          exact ih hts _ fun u hu s hs hclass => addMethods_ne_nil (hps u hu s hs hclass)

/-- Only a class makes its parts lie directly in a class. -/
theorem inClassBody_of_partScope {scope s : Scope} {t part : Tree} (ht : isClass t = false)
    (h : partScope scope t part = some s) (hs : s.inClassBody = true) :
    scope.inClassBody = true := by
  unfold partScope at h
  unfold isClass at ht
  grind [Scope.inner]

/-- A walk over a tree finds its facts.  A class is open wherever the scope lies in one, so no
method is lost. -/
theorem visit_eq (t : Tree) (scope : Scope) (w : Walker)
    (h : scope.inClassBody = true → w.stack ≠ []) : visit scope t w = w.absorb (facts scope t) := by
  induction t using Tree.induction_parts generalizing scope w with
  | step t ih =>
      cases t with
      | leaf => exact note_eq h
      | node kind role first rest =>
          cases hclass : isClass (.node kind role first rest) with
          | true =>
              -- inside a class there is always one open: the class itself
              have inside := visitAll_eq (partScope scope (.node kind role first rest)) ih
                (w.push scope (.node kind role first rest)) fun _ _ _ _ _ => List.cons_ne_nil _ _
              rw [facts_of_class hclass (List.cons_ne_nil _ _), ← pop_push, ← inside, visit]
              exact if_pos hclass
          | false =>
              have inside := visitAll_eq (partScope scope (.node kind role first rest)) ih
                (w.note scope (.node kind role first rest)) fun part _ s hs hbody => by
                  rw [note_eq h]
                  exact addMethods_ne_nil (h (inClassBody_of_partScope hclass hs hbody))
              rw [facts_of_not_class hclass, absorb_append, ← note_eq h, ← inside, visit]
              exact if_neg (Bool.eq_false_iff.mp hclass)

/-- **A walk over a module** finds its facts, and every class that it opened is closed. -/
theorem walk_eq (forest : Forest) : walk forest = ⟨unowned (moduleFacts forest), []⟩ := by
  have found : walk forest = absorb {} (moduleFacts forest) :=
    visitAll_eq _ (fun t _ scope w => visit_eq t scope w) _ fun _ _ s hs hbody => by
      cases hs
      cases hbody
  rw [found, absorb, empty_append]
  rfl

end Walker

/-! ### Outlines -/

/-- The definitions of a forest are recorded in an outline, and the walk that keeps the open classes
on a stack finds the same records and leaves none open. -/
structure Outlines (forest : Forest) (o : Outline) : Prop where
  recorded : RecordsDefinitions forest o.classes o.functions
  closed : (Walker.walk forest).stack = []
  classes : (Walker.walk forest).found.classes = o.classes
  functions : (Walker.walk forest).found.functions = o.functions

/-- **Each definition is recorded once and in its place**, whatever the syntax trees are, if they
are upright.  The trees of every text that is read are. -/
theorem outline_definitions (file : Path) (language : Language) (text : String) :
    (∀ forest : Forest, Grammar.Each Upright forest →
      Outlines forest (Family.python.outlineOf file language text forest)) ∧
    ∀ forest, parse text.toList = .ok forest → Grammar.Each Upright forest ∧
      outline file language text = .ok (Family.python.outlineOf file language text forest) := by
  constructor
  · intro forest h
    obtain ⟨hstack, hclasses, hfunctions⟩ : (Walker.walk forest).stack = [] ∧
        (Walker.walk forest).found.classes = (moduleFacts forest).classes ∧
        (Walker.walk forest).found.functions = (moduleFacts forest).functions := by
      rw [Walker.walk_eq]
      exact ⟨rfl, rfl, rfl⟩
    exact ⟨moduleFacts_recorded h, hstack, hclasses, hfunctions⟩
  · intro forest h
    have hparse : Family.python.parse file text = .ok forest := h
    exact ⟨(reads_of_parse h).1, Family.outline_of_parse hparse language⟩

/-- Definitions in classes and functions, behind a decorator and in a branch. -/
def nestedDefinitions : String :=
  "class A:\n @p\n def f(self):\n  class B:\n   def g(self): pass\n  def h(): pass\n if x:\n" ++
    "  def k(self): pass\ndef m():\n def n(): pass\n"

theorem outline_definitions_nested : ∃ forest o,
    parse nestedDefinitions.toList = .ok forest ∧ Grammar.Each Upright forest ∧
      ((Tree.subtreesAll forest).filter isFunction).length = 6 ∧
      outline ⟨"a.py"⟩ .python nestedDefinitions = .ok o ∧ Outlines forest o ∧
      o.classes.map (fun c => (c.name, c.methods.map fun m => m.name)) =
        [("B", ["g"]), ("A", ["f", "k"])] ∧
      o.functions.map (fun f => f.name) = ["m"] := by
  have trees : (parse nestedDefinitions.toList).toOption.any (fun forest => decide
      (((Tree.subtreesAll forest).filter isFunction).length = 6 ∧
        (moduleFacts forest).classes.map (fun c => (c.name, c.methods.map fun m => m.name)) =
          [("B", ["g"]), ("A", ["f", "k"])] ∧
        (moduleFacts forest).functions.map (fun f => f.name) = ["m"])) = true := by
    decide +kernel
  obtain ⟨forest, hparse, hcount, hclasses, hfunctions⟩ := exists_ok_of_any trees
  obtain ⟨records, reads⟩ := outline_definitions ⟨"a.py"⟩ .python nestedDefinitions
  obtain ⟨hupright, houtline⟩ := reads forest hparse
  exact ⟨forest, _, hparse, hupright, hcount, houtline, records forest hupright, hclasses,
    hfunctions⟩

end ArchReview.Python

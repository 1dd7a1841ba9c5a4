import ArchReview.Proofs.Grammar.ScriptTrees

/-!
# What the rules of the script grammar read

Each rule has one triple (`Reads`; `Continues` or `MayContinue` if it takes up trees that were read
before): it reads neat trees.  Operators are made of the token that was taken last, so what matters
is that steps that take a token answer with tokens; every other role is given to any trees.  Rules
call each other through goals, and the triples of the goals below are what a rule's triple rests on;
the grammar's follows by induction on its depth.

**The trees of a script are neat, and they spell its text** (`reads_of_parse`).
-/

set_option mvcgen.warning false

namespace ArchReview.Script

open Grammar Grammar.Located Std.Do

/-! ### Tokens -/

@[simp]
theorem spot_mk {c : Cursor} {bound typed : Bool} {dialect : Dialect} {look : Look} :
    spot (⟨c.chars, c.line, bound, typed, dialect, look⟩ : Cursor) = spot c := rfl

@[simp]
theorem sound_mk {c : Cursor} {bound typed : Bool} {dialect : Dialect} :
    Sound (⟨c.chars, c.line, bound, typed, dialect, c.look⟩ : Cursor) ↔ Sound c := Iff.rfl

theorem sound_moveTo (c : Cursor) (chars : List Char) (line : Nat) : Sound (c.moveTo chars line) :=
  Look.sound_scan chars line

@[spec]
theorem yields_ahead (s : Cursor) : Yields ahead s fun _ s' => s' = s := by
  mvcgen [ahead]

@[spec]
theorem yields_aheadOperator (s : Cursor) : Yields aheadOperator s fun _ s' => s' = s := by
  mvcgen [aheadOperator]

@[spec]
theorem yields_aheadTypeMark (s : Cursor) : Yields aheadTypeMark s fun _ s' => s' = s := by
  mvcgen [aheadTypeMark]

@[spec]
theorem reads_take (kind : Kind) (s : Cursor) : Reads (take kind) s (Each Token) := by
  refine yields_iff.mpr fun forest s' h hs => ?_
  unfold take at h
  split at h
  · cases h
  · next hne =>
      cases h
      have hpasses := hs.passes
      rw [hs.start] at hpasses
      exact ⟨each_append.mpr ⟨List.forall_mem_map.mpr hs.token, each_singleton.mpr rfl⟩,
        hpasses.behind_leaf (by simpa using hne), sound_moveTo _ _ _⟩

@[spec]
theorem reads_takePart (kind : Kind) (length : Nat) (s : Cursor) :
    Reads (takePart kind length) s (Each Token) := by
  refine yields_iff.mpr fun forest s' h hs => ?_
  unfold takePart at h
  dsimp only at h
  split at h
  · cases h
  · next hne =>
      cases h
      have hpasses : Tree.Passes (s.look.trivia.map Trivium.leaf) s.look.gap.toList
          ⟨s.line, s.chars⟩ ⟨s.look.line,
            (String.ofList (s.look.start.take length)).toList ++ s.look.start.drop length⟩ := by
        simpa using hs.passes
      have hne : String.ofList (s.look.start.take length) ≠ "" := by
        simpa [← String.toList_inj] using hne
      refine ⟨each_append.mpr ⟨List.forall_mem_map.mpr hs.token, each_singleton.mpr rfl⟩,
        (hpasses.behind_leaf hne).trans ?_, sound_moveTo _ _ _⟩
      rw [Leaf.breaks, String.toList_ofList]
      rfl

@[spec]
theorem reads_takeChars (kind : Kind) (length : Nat) (s : Cursor) :
    Reads (takeChars kind length) s (Each Token) := by
  refine yields_iff.mpr fun forest s' h _ => ?_
  cases h
  refine ⟨?_, Tree.behind_take s.line s.chars length, sound_moveTo _ _ _⟩
  split
  · exact each_nil
  · exact each_singleton.mpr rfl

@[spec]
theorem reads_takeComments (belongs : Trivium → Bool) (s : Cursor) :
    Reads (takeComments belongs) s (Each Token) := by
  refine yields_iff.mpr fun forest s' h hs => ?_
  cases h
  exact Look.Sound.dropWhile hs belongs

theorem passHtmlComments_sound (n : Nat) (c : Cursor) :
    spot (c.passHtmlComments n) = spot c ∧ (Sound c → Sound (c.passHtmlComments n)) := by
  induction n generalizing c with
  | zero => exact ⟨rfl, id⟩
  | succ n ih =>
      unfold Cursor.passHtmlComments
      split
      · next hmark =>
          obtain ⟨hspot, hsound⟩ := ih { c with look := c.look.passHtmlComment }
          exact ⟨hspot, fun h => hsound (h.passHtmlComment hmark)⟩
      · exact ⟨rfl, id⟩

@[spec]
theorem yields_htmlComments (s : Cursor) :
    Yields htmlComments s fun _ s' => spot s' = spot s ∧ (Sound s → Sound s') := by
  refine yields_iff.mpr fun _ s' h => ?_
  cases h
  exact passHtmlComments_sound _ s

/-- What is read behind comments in the style of HTML is read with them. -/
theorem reads_behindComments {p : Step Forest} (h : ∀ s, Reads p s (Each Neat)) (s : Cursor) :
    Reads (do htmlComments; p) s (Each Neat) := by
  refine yields_iff.mpr fun forest s' hrun hs => ?_
  obtain ⟨hspot, hsound⟩ := passHtmlComments_sound s.chars.length s
  rw [← hspot]
  exact yields_iff.mp (h (s.passHtmlComments s.chars.length)) forest s' hrun (hsound hs)

@[spec]
theorem reads_symbol (text : String) (s : Cursor) : Reads (symbol text) s (Each Token) := by
  mvcgen [symbol] <;> simp_all

@[spec]
theorem reads_symbol? (text : String) (s : Cursor) : Reads (symbol? text) s (Each Token) := by
  mvcgen [symbol?] <;> simp_all

@[spec]
theorem reads_closeAngle (s : Cursor) : Reads closeAngle s (Each Token) := by
  mvcgen [closeAngle] <;> simp_all

@[spec]
theorem reads_word (kind : Kind) (s : Cursor) : Reads (word kind) s (Each Token) := by
  mvcgen [word]
  simp_all

@[spec]
theorem reads_string (s : Cursor) : Reads string s (Each Token) := by
  mvcgen [string]
  simp_all

@[spec]
theorem reads_semicolon (s : Cursor) : Reads semicolon s (Each Token) := by
  mvcgen [semicolon, takeLineComments] <;> simp_all

@[spec]
theorem reads_within {p : Step Forest} (h : ∀ s, Reads p s (Each Neat)) (s : Cursor) :
    Reads (within p) s (Each Neat) := by
  mvcgen [within, h]
  simp_all +zetaDelta

@[spec]
theorem reads_lineBound {p : Step Forest} (h : ∀ s, Reads p s (Each Neat)) (s : Cursor) :
    Reads (lineBound p) s (Each Neat) := by
  mvcgen [lineBound, h]
  simp_all +zetaDelta

@[spec]
theorem reads_when? {starts : Cursor → Bool} {p : Step Forest} (h : ∀ s, Reads p s (Each Neat))
    (s : Cursor) : Reads (when? starts p) s (Each Neat) := by
  mvcgen [when?, h]
  simp_all

@[spec]
theorem reads_many {step : Step (Option Forest)} (h : ∀ s, MayRead step s (Each Neat))
    (s : Cursor) : Reads (repeatWhile step) s (Each Neat) :=
  reads_repeatWhile h s

theorem reads_comma? (s : Cursor) : Reads (symbol? ",") s (Each Neat) := by
  mvcgen
  simp_all

@[spec]
theorem reads_commaList {item : Step Forest} {stops : Cursor → Bool}
    (h : ∀ s, Reads item s (Each Neat)) (s : Cursor) : Reads (commaList item stops) s (Each Neat) :=
  reads_separated h reads_comma? s

@[spec]
theorem continues_growth {step : Forest → Step (Option Forest)}
    (h : ∀ tree s, MayContinue tree (step tree) s (Each Neat)) (tree : Forest) (s : Cursor) :
    Continues tree (Each Neat tree) (extend step tree) s (Each Neat) :=
  continues_extend h tree s

@[spec]
theorem reads_orTry {p q : Step Forest} (hp : ∀ s, Reads p s (Each Neat))
    (hq : ∀ s, Reads q s (Each Neat)) (s : Cursor) : Reads (orTry p q) s (Each Neat) :=
  yields_orTry (hp s) (hq s)

/-! ### Types -/

section Rules

-- every goal is read alike, so the rules need one assumption of the level below
variable {self : Rules} (h : ∀ goal s, Reads (self goal) s (Each Neat))
include h

theorem reads_propertyName (s : Cursor) : Reads (propertyName self) s (Each Neat) := by
  mvcgen [propertyName, h] <;> intros <;> simp_all

theorem reads_typeMark (s : Cursor) : Reads (typeMark self) s (Each Neat) := by
  mvcgen [typeMark, h]
  intros
  simp_all

theorem reads_typeMark? (s : Cursor) : Reads (typeMark? self) s (Each Neat) := by
  have type := reads_typeMark h
  mvcgen [typeMark?, type]

omit h in
@[spec]
theorem reads_qualifiedName (kind : Kind) (s : Cursor) :
    Reads (qualifiedName kind) s (Each Neat) := by
  mvcgen [qualifiedName] <;> intros <;> simp_all

theorem reads_predicate (s : Cursor) : Reads (predicate self) s (Each Neat) := by
  mvcgen [predicate, h] <;> intros <;> simp_all

theorem reads_resultAnnotation? (s : Cursor) : Reads (resultAnnotation? self) s (Each Neat) := by
  have test := reads_predicate h
  mvcgen [resultAnnotation?, test, h] <;> intros <;> simp_all

theorem reads_typeParameter (s : Cursor) : Reads (typeParameter self) s (Each Neat) := by
  mvcgen [typeParameter, h] <;> intros <;> simp_all

theorem reads_typeParameters? (s : Cursor) : Reads (typeParameters? self) s (Each Neat) := by
  have item := reads_typeParameter h
  mvcgen [typeParameters?, item]
  intros
  simp_all

theorem reads_typeArguments (s : Cursor) : Reads (typeArguments self) s (Each Neat) := by
  mvcgen [typeArguments, h]
  intros
  simp_all

omit h in
@[spec]
theorem reads_parameterModifiers (s : Cursor) : Reads parameterModifiers s (Each Neat) := by
  mvcgen [parameterModifiers] <;> intros <;> simp_all

theorem reads_parameterPattern (s : Cursor) : Reads (parameterPattern self) s (Each Neat) := by
  mvcgen [parameterPattern, h] <;> intros <;> simp_all

theorem reads_decorator (s : Cursor) : Reads (decorator self) s (Each Neat) := by
  mvcgen [decorator, h]
  intros
  simp_all

theorem reads_decorators (s : Cursor) : Reads (decorators self) s (Each Neat) := by
  have mark := reads_decorator h
  mvcgen [decorators, mark] <;> intros <;> simp_all

theorem reads_parameter (s : Cursor) : Reads (parameter self) s (Each Neat) := by
  have marks := reads_decorators h
  have pattern := reads_parameterPattern h
  have type := reads_typeMark? h
  mvcgen [parameter, marks, pattern, type, h] <;> intros <;> simp_all

theorem reads_parameters (s : Cursor) : Reads (parameters self) s (Each Neat) := by
  have item := reads_parameter h
  mvcgen [parameters, item]
  intros
  simp_all

theorem reads_signature (s : Cursor) : Reads (signature self) s (Each Neat) := by
  have generics := reads_typeParameters? h
  have items := reads_parameters h
  have result := reads_resultAnnotation? h
  mvcgen [signature, generics, items, result]
  intros
  simp_all

theorem reads_indexSignature (s : Cursor) : Reads (indexSignature self) s (Each Neat) := by
  have type := reads_typeMark? h
  mvcgen [indexSignature, type, h] <;> intros <;> simp_all

omit h in
@[spec]
theorem reads_memberModifiers (s : Cursor) : Reads memberModifiers s (Each Neat) := by
  mvcgen [memberModifiers] <;> intros <;> simp_all

theorem reads_typeMember (s : Cursor) : Reads (typeMember self) s (Each Neat) := by
  have head := reads_signature h
  have index := reads_indexSignature h
  have title := reads_propertyName h
  have type := reads_typeMark? h
  mvcgen [typeMember, head, index, title, type] <;> intros <;> simp_all

omit h in
@[spec]
theorem reads_memberEnd (s : Cursor) : Reads memberEnd s (Each Token) := by
  mvcgen [memberEnd, takeLineComments]
  simp_all

theorem reads_objectType (s : Cursor) : Reads (objectType self) s (Each Neat) := by
  have item := reads_typeMember h
  mvcgen [objectType, item] <;> intros <;> simp_all

theorem reads_tupleMember (s : Cursor) : Reads (tupleMember self) s (Each Neat) := by
  have type := reads_typeMark h
  mvcgen [tupleMember, type, h] <;> intros <;> simp_all

theorem reads_tupleType (s : Cursor) : Reads (tupleType self) s (Each Neat) := by
  have item := reads_tupleMember h
  mvcgen [tupleType, item]
  intros
  simp_all

omit h in
theorem reads_templateTail {part : Step Forest} (hpart : ∀ s, Reads part s (Each Neat)) :
    ∀ n s, Reads (templateTail part n) s (Each Neat)
  | 0, _ => yields_failHere
  | n + 1, s => by
      have ih := reads_templateTail hpart n
      mvcgen [templateTail, hpart, ih] <;> intros <;> simp_all

omit h in
@[spec]
theorem reads_templateOf (kind : Kind) {part : Step Forest}
    (hpart : ∀ s, Reads part s (Each Neat)) (s : Cursor) :
    Reads (templateOf kind part) s (Each Neat) := by
  have tail := reads_templateTail hpart
  mvcgen [templateOf, tail]
  intros
  simp_all

omit h in
@[spec]
theorem reads_importArguments (s : Cursor) : Reads importArguments s (Each Neat) := by
  mvcgen [importArguments] <;> intros <;> simp_all

theorem reads_importType (s : Cursor) : Reads (importType self) s (Each Neat) := by
  have generics := reads_typeArguments h
  mvcgen [importType, generics] <;> intros <;> simp_all +zetaDelta

theorem reads_typeQuery (s : Cursor) : Reads (typeQuery self) s (Each Neat) := by
  have imported := reads_importType h
  have generics := reads_typeArguments h
  mvcgen [typeQuery, imported, generics] <;> intros <;> simp_all

theorem reads_namedType (s : Cursor) : Reads (namedType self) s (Each Neat) := by
  have generics := reads_typeArguments h
  mvcgen [namedType, generics] <;> intros <;> simp_all

theorem reads_simpleType (s : Cursor) : Reads (simpleType self) s (Each Neat) := by
  have named := reads_namedType h
  have query := reads_typeQuery h
  have imported := reads_importType h
  have object := reads_objectType h
  have tuple := reads_tupleType h
  mvcgen [simpleType, named, query, imported, object, tuple, h] <;> intros <;> simp_all

theorem reads_postfixType (s : Cursor) : Reads (postfixType self) s (Each Neat) := by
  have first := reads_simpleType h
  mvcgen [postfixType, first, h] <;> intros <;> simp_all

theorem reads_operatorType (s : Cursor) : Reads (operatorType self) s (Each Neat) := by
  have inner := reads_postfixType h
  mvcgen [operatorType, inner, h] <;> intros <;> simp_all

omit h in
theorem reads_joinedTypes (mark : String) {next : Step Forest}
    (hnext : ∀ s, Reads next s (Each Neat)) (s : Cursor) :
    Reads (joinedTypes mark next) s (Each Neat) := by
  mvcgen [joinedTypes, hnext] <;> intros <;> simp_all

theorem reads_functionType (s : Cursor) : Reads (functionType self) s (Each Neat) := by
  have generics := reads_typeParameters? h
  have items := reads_parameters h
  have test := reads_predicate h
  mvcgen [functionType, generics, items, test, h] <;> intros <;> simp_all

theorem reads_plainType (s : Cursor) : Reads (plainType self) s (Each Neat) := by
  have function := reads_functionType h
  have operator := reads_operatorType h
  have arm : ∀ s, Reads (plainType.arm self) s (Each Neat) := by
    intro s
    mvcgen [plainType.arm, function, operator]
  have union := reads_joinedTypes "|" (reads_joinedTypes "&" arm)
  mvcgen [plainType, function, union]
  intros
  simp_all

theorem reads_type (s : Cursor) : Reads (type self) s (Each Neat) := by
  have plain := reads_plainType h
  mvcgen [type, plain, h] <;> intros <;> simp_all

/-! ### Expressions

A literal on the left of an assignment is made a pattern, which leaves its operators as they are. -/

theorem continues_defaulted (target : Forest) (s : Cursor) :
    Continues target (Each Neat target) (defaulted self target) s (Each Neat) := by
  mvcgen [defaulted, h] <;> intros <;> simp_all

theorem reads_restPattern (s : Cursor) : Reads (restPattern self) s (Each Neat) := by
  mvcgen [restPattern, h]
  intros
  simp_all

theorem reads_propertyPattern (s : Cursor) : Reads (propertyPattern self) s (Each Neat) := by
  have rest := reads_restPattern h
  have filled := continues_defaulted h
  have key := reads_propertyName h
  mvcgen [propertyPattern, rest, filled, key, h] <;> intros <;> simp_all

theorem reads_elementPattern (s : Cursor) : Reads (elementPattern self) s (Each Neat) := by
  have rest := reads_restPattern h
  have filled := continues_defaulted h
  mvcgen [elementPattern, rest, filled, h] <;> intros <;> simp_all

theorem reads_pattern (s : Cursor) : Reads (pattern self) s (Each Neat) := by
  have property := reads_propertyPattern h
  have element := reads_elementPattern h
  mvcgen [pattern, property, element] <;> intros <;> simp_all

theorem reads_template (s : Cursor) : Reads (template self) s (Each Neat) :=
  reads_templateOf .template (h .sequence) s

omit h in
@[spec]
theorem reads_regex (s : Cursor) : Reads regex s (Each Neat) := by
  mvcgen [regex] <;> intros <;> simp_all

omit h in
@[spec]
theorem reads_methodMarks (s : Cursor) : Reads methodMarks s (Each Neat) := by
  mvcgen [methodMarks] <;> intros <;> simp_all

theorem reads_objectMember (s : Cursor) : Reads (objectMember self) s (Each Neat) := by
  have filled := continues_defaulted h
  have title := reads_propertyName h
  mvcgen [objectMember, filled, title, h] <;> intros <;> simp_all +zetaDelta

theorem reads_objectLiteral (s : Cursor) : Reads (objectLiteral self) s (Each Neat) := by
  have item := reads_objectMember h
  mvcgen [objectLiteral, item]
  intros
  simp_all

theorem reads_listItem (s : Cursor) : Reads (listItem self) s (Each Neat) := by
  mvcgen [listItem, h] <;> intros <;> simp_all

theorem reads_arrayLiteral (s : Cursor) : Reads (arrayLiteral self) s (Each Neat) := by
  have item := reads_listItem h
  mvcgen [arrayLiteral, item]
  intros
  simp_all

theorem reads_arguments (s : Cursor) : Reads (arguments self) s (Each Neat) := by
  have item := reads_listItem h
  mvcgen [arguments, item]
  intros
  simp_all

theorem reads_parenthesized (s : Cursor) : Reads (parenthesized self) s (Each Neat) := by
  have type := reads_typeMark? h
  mvcgen [parenthesized, type, h]
  intros
  simp_all

theorem reads_functionExpression (s : Cursor) : Reads (functionExpression self) s (Each Neat) := by
  mvcgen [functionExpression, h] <;> intros <;> simp_all

theorem reads_extendsClause? (s : Cursor) : Reads (extendsClause? self) s (Each Neat) := by
  have generics := reads_typeArguments h
  mvcgen [extendsClause?, generics, h] <;> intros <;> simp_all

theorem reads_implementsClause? (s : Cursor) : Reads (implementsClause? self) s (Each Neat) := by
  mvcgen [implementsClause?, h] <;> intros <;> simp_all

theorem reads_classTail (s : Cursor) : Reads (classTail self) s (Each Neat) := by
  have generics := reads_typeParameters? h
  have bases := reads_extendsClause? h
  have interfaces := reads_implementsClause? h
  mvcgen [classTail, generics, bases, interfaces, h] <;> intros <;> simp_all +zetaDelta

theorem reads_classExpression (s : Cursor) : Reads (classExpression self) s (Each Neat) := by
  have marks := reads_decorators h
  have tail := reads_classTail h
  mvcgen [classExpression, marks, tail]
  intros
  simp_all

theorem continues_arrowTail (head : Forest) (s : Cursor) :
    Continues head (Each Neat head) (arrowTail self head) s (Each Neat) := by
  mvcgen [arrowTail, h] <;> intros <;> simp_all

theorem reads_arrowFunction (s : Cursor) : Reads (arrowFunction self) s (Each Neat) := by
  have generics := reads_typeParameters? h
  have items := reads_parameters h
  have result := reads_resultAnnotation? h
  have tail := continues_arrowTail h
  mvcgen [arrowFunction, generics, items, result, tail] <;> intros <;> simp_all

theorem reads_shortArrow (s : Cursor) : Reads (shortArrow self) s (Each Neat) := by
  have tail := continues_arrowTail h
  mvcgen [shortArrow, tail] <;> intros <;> simp_all

theorem reads_operandStart (s : Cursor) :
    Reads (newExpression.operandStart self) s (Each Neat) := by
  have group := reads_parenthesized h
  have type := reads_classExpression h
  have function := reads_functionExpression h
  have list := reads_arrayLiteral h
  mvcgen [newExpression.operandStart, group, type, function, list, h] <;> intros <;> simp_all

theorem reads_newExpression {chain : Forest → Step (Option Forest)}
    (hchain : ∀ tree s, MayContinue tree (chain tree) s (Each Neat)) (s : Cursor) :
    Reads (newExpression self chain) s (Each Neat) := by
  have first := reads_operandStart h
  have generics := reads_typeArguments h
  have args := reads_arguments h
  mvcgen [newExpression, first, hchain, generics, args] <;> intros <;> simp_all

theorem continues_memberStep (tree : Forest) (s : Cursor) :
    MayContinue tree (memberStep self tree) s (Each Neat) := by
  mvcgen [memberStep, h] <;> intros <;> simp_all

theorem continues_optionalStep (tree : Forest) (s : Cursor) :
    Continues tree (Each Neat tree) (optionalStep self tree) s (Each Neat) := by
  have generics := reads_typeArguments h
  have args := reads_arguments h
  mvcgen [optionalStep, generics, args, h] <;> intros <;> simp_all

theorem continues_genericStep (alone : Bool) (tree : Forest) (s : Cursor) :
    MayContinue tree (genericStep self alone tree) s (Each Neat) := by
  have generics := reads_typeArguments h
  have args := reads_arguments h
  have text := reads_template h
  refine yields_orTry ?_ ?_
  · mvcgen [generics, args, text] <;> intros <;> simp_all
  · mvcgen
    simp_all

theorem continues_trailer (alone : Bool) (tree : Forest) (s : Cursor) :
    MayContinue tree (trailer self alone tree) s (Each Neat) := by
  have optional := continues_optionalStep h
  have args := reads_arguments h
  have generic := continues_genericStep h
  have text := reads_template h
  have member := continues_memberStep h
  mvcgen [trailer, optional, args, generic, text, member] <;> intros <;> simp_all

theorem reads_wordOperand (s : Cursor) : Reads (wordOperand self) s (Each Neat) := by
  have function := reads_functionExpression h
  have type := reads_classExpression h
  have instantiation := reads_newExpression h (continues_memberStep h)
  mvcgen [wordOperand, function, type, instantiation] <;> intros <;> simp_all

theorem reads_typeAssertion (s : Cursor) : Reads (typeAssertion self) s (Each Neat) := by
  have generics := reads_typeArguments h
  mvcgen [typeAssertion, generics, h]
  intros
  simp_all

theorem reads_operand (s : Cursor) : Reads (operand self) s (Each Neat) := by
  have text := reads_template h
  have name := reads_wordOperand h
  have arrow := reads_arrowFunction h
  have group := reads_parenthesized h
  have list := reads_arrayLiteral h
  have object := reads_objectLiteral h
  have assertion := reads_typeAssertion h
  have type := reads_classExpression h
  mvcgen [operand, text, name, arrow, group, list, object, assertion, type, h] <;> intros <;>
    simp_all

theorem reads_chained (s : Cursor) : Reads (chained self) s (Each Neat) := by
  have first := reads_operand h
  have step := continues_trailer h true
  mvcgen [chained, first, step]
  intros
  simp_all

theorem reads_base (s : Cursor) : Reads (base self) s (Each Neat) := by
  have first := reads_operand h
  have step := continues_trailer h false
  mvcgen [base, first, step]
  intros
  simp_all

theorem reads_reference (s : Cursor) : Reads (reference self) s (Each Neat) := by
  have instantiation := reads_newExpression h (continues_memberStep h)
  have group := reads_parenthesized h
  have member := continues_memberStep h
  have args := reads_arguments h
  have generic := continues_genericStep h
  mvcgen [reference, instantiation, group, member, args, generic] <;> intros <;> simp_all

theorem reads_unary (s : Cursor) : Reads (unary self) s (Each Neat) := by
  have value := reads_chained h
  mvcgen [unary, value, h] <;> intros <;> simp_all

theorem reads_power (s : Cursor) : Reads (power self) s (Each Neat) := by
  have value := reads_unary h
  mvcgen [power, value] <;> intros <;> simp_all
  -- with no operator there is nothing behind the operand
  rintro rfl
  simp_all

omit h in
theorem reads_joined (marks : List String) {next : Step Forest}
    (hnext : ∀ s, Reads next s (Each Neat)) (s : Cursor) :
    Reads (joined marks next) s (Each Neat) := by
  mvcgen [joined, hnext] <;> intros <;> simp_all

theorem reads_relation {next : Step Forest} (hnext : ∀ s, Reads next s (Each Neat)) (s : Cursor) :
    Reads (relation self next) s (Each Neat) := by
  mvcgen [relation, hnext, h] <;> intros <;> simp_all

theorem reads_coalesced (s : Cursor) : Reads (coalesced self) s (Each Neat) := by
  have shift := reads_joined ["<<", ">>", ">>>"]
    (reads_joined ["+", "-"] (reads_joined ["*", "/", "%"] (reads_power h)))
  have equality := reads_joined ["==", "!=", "===", "!=="] (reads_relation h shift)
  have bits := reads_joined ["|"] (reads_joined ["^"] (reads_joined ["&"] equality))
  exact reads_joined ["??"] (reads_joined ["||"] (reads_joined ["&&"] bits)) s

theorem reads_conditionTail (s : Cursor) : Reads (conditionTail self) s (Each Neat) := by
  mvcgen [conditionTail, h]
  intros
  simp_all

theorem reads_conditional (s : Cursor) : Reads (conditional self) s (Each Neat) := by
  have test := reads_coalesced h
  have tail := reads_conditionTail h
  mvcgen [conditional, test, tail, h] <;> intros <;> simp_all +zetaDelta

theorem reads_yieldExpression (s : Cursor) : Reads (yieldExpression self) s (Each Neat) := by
  mvcgen [yieldExpression, h] <;> intros <;> simp_all

theorem reads_assigned (s : Cursor) : Reads (value.assigned self) s (Each Neat) := by
  have left := reads_conditional h
  mvcgen [value.assigned, left, h] <;> intros <;> simp_all

theorem reads_value (s : Cursor) : Reads (value self) s (Each Neat) := by
  have short := reads_shortArrow h
  have yielded := reads_yieldExpression h
  have arrow := reads_arrowFunction h
  have assigned := reads_assigned h
  unfold value
  refine reads_behindComments (fun s => ?_) s
  mvcgen [short, yielded, arrow, assigned]

theorem reads_sequence (s : Cursor) : Reads (sequence self) s (Each Neat) := by
  mvcgen [sequence, h] <;> intros <;> simp_all

/-! ### Markup

The text between tags is taken as it stands, so it is a token as well. -/

omit h in
@[spec]
theorem reads_markupWord (kind : Kind) (s : Cursor) : Reads (markupWord kind) s (Each Token) := by
  mvcgen [markupWord]
  simp_all

omit h in
@[spec]
theorem reads_elementName (s : Cursor) : Reads elementName s (Each Neat) := by
  mvcgen [elementName] <;> intros <;> simp_all

theorem reads_embedded (s : Cursor) : Reads (embedded self) s (Each Neat) := by
  mvcgen [embedded, h] <;> intros <;> simp_all

omit h in
@[spec]
theorem reads_markupString (s : Cursor) : Reads markupString s (Each Neat) := by
  mvcgen [markupString] <;> intros <;> simp_all

omit h in
@[spec]
theorem reads_attributeName (s : Cursor) : Reads attributeName s (Each Neat) := by
  mvcgen [attributeName] <;> intros <;> simp_all

theorem reads_elementAttribute (s : Cursor) : Reads (elementAttribute self) s (Each Neat) := by
  have inner := reads_embedded h
  mvcgen [elementAttribute, inner, h] <;> intros <;> simp_all

theorem reads_attributes (s : Cursor) : Reads (attributes self) s (Each Neat) := by
  have one := reads_elementAttribute h
  have inner := reads_embedded h
  mvcgen [attributes, one, inner] <;> intros <;> simp_all

theorem reads_children (s : Cursor) : Reads (children self) s (Each Neat) := by
  have inner := reads_embedded h
  mvcgen [children, inner, h] <;> intros <;> simp_all

omit h in
@[spec]
theorem reads_closingTag (s : Cursor) : Reads closingTag s (Each Neat) := by
  mvcgen [closingTag, tagEnd]
  intros
  simp_all

theorem reads_element (s : Cursor) : Reads (element self) s (Each Neat) := by
  have generics := reads_typeArguments h
  have items := reads_attributes h
  have inside := reads_children h
  mvcgen [element, tagEnd, generics, items, inside] <;> intros <;> simp_all +zetaDelta

/-! ### Declarations -/

theorem reads_statementList (s : Cursor) : Reads (statementList self) s (Each Neat) := by
  mvcgen [statementList, h] <;> intros <;> simp_all

theorem reads_block (s : Cursor) : Reads (block self) s (Each Neat) := by
  have inside := reads_statementList h
  mvcgen [block, inside]
  intros
  simp_all

theorem reads_declarator (s : Cursor) : Reads (declarator self) s (Each Neat) := by
  have type := reads_typeMark? h
  mvcgen [declarator, type, h] <;> intros <;> simp_all

theorem reads_declarators (s : Cursor) : Reads (declarators self) s (Each Neat) := by
  have one := reads_declarator h
  mvcgen [declarators, one] <;> intros <;> simp_all

theorem reads_variableDeclaration (s : Cursor) :
    Reads (variableDeclaration self) s (Each Neat) := by
  have items := reads_declarators h
  mvcgen [variableDeclaration, items]
  intros
  simp_all

theorem reads_functionDeclaration (s : Cursor) :
    Reads (functionDeclaration self) s (Each Neat) := by
  mvcgen [functionDeclaration, h] <;> intros <;> simp_all

theorem reads_classMember (s : Cursor) : Reads (classMember self) s (Each Neat) := by
  have marks := reads_decorators h
  have index := reads_indexSignature h
  have title := reads_propertyName h
  have type := reads_typeMark? h
  mvcgen [classMember, marks, index, title, type, h] <;> intros <;> simp_all +zetaDelta

theorem reads_classBody (s : Cursor) : Reads (classBody self) s (Each Neat) := by
  have item := reads_classMember h
  mvcgen [classBody, item] <;> intros <;> simp_all

theorem continues_classDeclaration (marks : Forest) (s : Cursor) :
    Continues marks (Each Neat marks) (classDeclaration self marks) s (Each Neat) := by
  have tail := reads_classTail h
  mvcgen [classDeclaration, tail]
  intros
  simp_all +zetaDelta

theorem reads_interfaceDeclaration (s : Cursor) :
    Reads (interfaceDeclaration self) s (Each Neat) := by
  have generics := reads_typeParameters? h
  have body := reads_objectType h
  mvcgen [interfaceDeclaration, generics, body, h] <;> intros <;> simp_all

theorem reads_typeAlias (s : Cursor) : Reads (typeAlias self) s (Each Neat) := by
  have generics := reads_typeParameters? h
  mvcgen [typeAlias, generics, h]
  intros
  simp_all

theorem reads_enumMember (s : Cursor) : Reads (enumMember self) s (Each Neat) := by
  have title := reads_propertyName h
  mvcgen [enumMember, title, h] <;> intros <;> simp_all

theorem reads_enumDeclaration (s : Cursor) : Reads (enumDeclaration self) s (Each Neat) := by
  have item := reads_enumMember h
  mvcgen [enumDeclaration, item] <;> intros <;> simp_all

theorem reads_namespaceDeclaration (s : Cursor) :
    Reads (namespaceDeclaration self) s (Each Neat) := by
  mvcgen [namespaceDeclaration, h] <;> intros <;> simp_all

/-! ### Imports and exports -/

omit h in
@[spec]
theorem reads_importSpecifier (s : Cursor) : Reads importSpecifier s (Each Neat) := by
  mvcgen [importSpecifier] <;> intros <;> simp_all

omit h in
@[spec]
theorem reads_namedImports (s : Cursor) : Reads namedImports s (Each Neat) := by
  mvcgen [namedImports]
  intros
  simp_all

omit h in
@[spec]
theorem reads_namespaceImport (s : Cursor) : Reads namespaceImport s (Each Neat) := by
  mvcgen [namespaceImport]
  intros
  simp_all

omit h in
@[spec]
theorem reads_importClause (s : Cursor) : Reads importClause s (Each Neat) := by
  mvcgen [importClause] <;> intros <;> simp_all

theorem reads_importAttributes? (s : Cursor) : Reads (importAttributes? self) s (Each Neat) := by
  have value := reads_objectLiteral h
  mvcgen [importAttributes?, value] <;> intros <;> simp_all

omit h in
@[spec]
theorem reads_fromSource (s : Cursor) : Reads fromSource s (Each Neat) := by
  mvcgen [fromSource]
  intros
  simp_all

omit h in
theorem continues_importEquals (importWord : Forest) (s : Cursor) :
    Continues importWord (Each Neat importWord) (importEquals importWord) s (Each Neat) := by
  mvcgen [importEquals] <;> intros <;> simp_all +zetaDelta

omit h in
@[spec]
theorem reads_importKind (s : Cursor) : Reads importKind s (Each Token) := by
  mvcgen [importKind]
  simp_all

theorem reads_importStatement (s : Cursor) : Reads (importStatement self) s (Each Neat) := by
  have details := reads_importAttributes? h
  have equals := continues_importEquals
  mvcgen [importStatement, details, equals] <;> intros <;> simp_all

omit h in
@[spec]
theorem reads_exportName (s : Cursor) : Reads exportName s (Each Neat) := by
  mvcgen [exportName] <;> intros <;> simp_all

omit h in
@[spec]
theorem reads_exportSpecifier (s : Cursor) : Reads exportSpecifier s (Each Neat) := by
  mvcgen [exportSpecifier] <;> intros <;> simp_all

omit h in
@[spec]
theorem reads_exportClause (s : Cursor) : Reads exportClause s (Each Neat) := by
  mvcgen [exportClause]
  intros
  simp_all

theorem reads_exportDefault (s : Cursor) : Reads (exportDefault self) s (Each Neat) := by
  have type := continues_classDeclaration h
  have marks := reads_decorators h
  have function := reads_functionDeclaration h
  mvcgen [exportDefault, type, marks, function, h] <;> intros <;> simp_all +zetaDelta

theorem continues_exportStatement (marks : Forest) (s : Cursor) :
    Continues marks (Each Neat marks) (exportStatement self marks) s (Each Neat) := by
  have default := reads_exportDefault h
  have details := reads_importAttributes? h
  mvcgen [exportStatement, default, details, h] <;> intros <;> simp_all +zetaDelta

/-! ### Control flow -/

theorem reads_condition (s : Cursor) : Reads (condition self) s (Each Neat) := by
  mvcgen [condition, h]
  intros
  simp_all

theorem reads_ifStatement (s : Cursor) : Reads (ifStatement self) s (Each Neat) := by
  have test := reads_condition h
  mvcgen [ifStatement, test, h] <;> intros <;> simp_all

theorem reads_forInHead (s : Cursor) : Reads (forInHead self) s (Each Neat) := by
  mvcgen [forInHead, h] <;> intros <;> simp_all

theorem reads_forHead (s : Cursor) : Reads (forHead self) s (Each Neat) := by
  have items := reads_declarators h
  mvcgen [forHead, items, h] <;> intros <;> simp_all

theorem reads_forStatement (s : Cursor) : Reads (forStatement self) s (Each Neat) := by
  have members := reads_forInHead h
  have parts := reads_forHead h
  -- the head of a loop is read along with the kind of the loop
  have head : ∀ s, Yields (orTry (Prod.mk Kind.forIn <$> forInHead self)
      (Prod.mk Kind.forStatement <$> forHead self)) s fun r s' => Sound s →
        Each Neat r.2 ∧ Tree.behind r.2 (spot s) = some (spot s') ∧ Sound s' := by
    refine fun s => yields_orTry ?_ ?_
    · mvcgen [members]
    · mvcgen [parts]
  mvcgen [forStatement, within, -reads_within, head, h]
  intros
  simp_all +zetaDelta

theorem reads_whileStatement (s : Cursor) : Reads (whileStatement self) s (Each Neat) := by
  have test := reads_condition h
  mvcgen [whileStatement, test, h]
  intros
  simp_all

theorem reads_withStatement (s : Cursor) : Reads (withStatement self) s (Each Neat) := by
  have object := reads_condition h
  mvcgen [withStatement, object, h]
  intros
  simp_all

theorem reads_doStatement (s : Cursor) : Reads (doStatement self) s (Each Neat) := by
  have test := reads_condition h
  mvcgen [doStatement, test, h]
  intros
  simp_all

theorem reads_caseBody (s : Cursor) : Reads (caseBody self) s (Each Neat) := by
  mvcgen [caseBody, h] <;> intros <;> simp_all

theorem reads_switchCase (s : Cursor) : Reads (switchCase self) s (Each Neat) := by
  have body := reads_caseBody h
  mvcgen [switchCase, body, h] <;> intros <;> simp_all

theorem reads_switchStatement (s : Cursor) : Reads (switchStatement self) s (Each Neat) := by
  have subject := reads_condition h
  have item := reads_switchCase h
  mvcgen [switchStatement, subject, item] <;> intros <;> simp_all +zetaDelta

theorem reads_tryStatement (s : Cursor) : Reads (tryStatement self) s (Each Neat) := by
  have type := reads_typeMark? h
  mvcgen [tryStatement, type, h] <;> intros <;> simp_all

theorem reads_jump (s : Cursor) : Reads (jump self) s (Each Neat) := by
  mvcgen [jump, h] <;> intros <;> simp_all

omit h in
@[spec]
theorem reads_leave (s : Cursor) : Reads leave s (Each Neat) := by
  mvcgen [leave] <;> intros <;> simp_all

theorem reads_throwStatement (s : Cursor) : Reads (throwStatement self) s (Each Neat) := by
  mvcgen [throwStatement, h]
  intros
  simp_all

theorem reads_expressionStatement (s : Cursor) :
    Reads (expressionStatement self) s (Each Neat) := by
  mvcgen [expressionStatement, h]
  intros
  simp_all

/-! ### Statements -/

theorem reads_ambient (s : Cursor) : Reads (ambient self) s (Each Neat) := by
  mvcgen [ambient, h] <;> intros <;> simp_all

theorem reads_decoratedStatement (s : Cursor) : Reads (decoratedStatement self) s (Each Neat) := by
  have marks := reads_decorators h
  have exported := continues_exportStatement h
  have type := continues_classDeclaration h
  mvcgen [decoratedStatement, marks, exported, type] <;> intros <;> simp_all

theorem reads_keywordStatement (s : Cursor) : Reads (keywordStatement self) s (Each Neat) := by
  have inner := reads_block h
  have decorated := reads_decoratedStatement h
  have enum := reads_enumDeclaration h
  have bindings := reads_variableDeclaration h
  have function := reads_functionDeclaration h
  have type := continues_classDeclaration h
  have choice := reads_ifStatement h
  have loop := reads_forStatement h
  have whiles := reads_whileStatement h
  have withs := reads_withStatement h
  have dos := reads_doStatement h
  have switch := reads_switchStatement h
  have tries := reads_tryStatement h
  have throws := reads_throwStatement h
  have returns := reads_jump h
  have imports := reads_importStatement h
  have exports := continues_exportStatement h
  have interface := reads_interfaceDeclaration h
  have aliased := reads_typeAlias h
  have space := reads_namespaceDeclaration h
  have declared := reads_ambient h
  have value := reads_expressionStatement h
  unfold keywordStatement
  refine reads_behindComments (fun s => ?_) s
  mvcgen [inner, decorated, enum, bindings, function, type, choice, loop, whiles,
    withs, dos, switch, tries, throws, returns, imports, exports, interface, aliased, space,
    declared, value, h] <;> intros <;> simp_all +zetaDelta

theorem reads_statement (s : Cursor) : Reads (statement self) s (Each Neat) :=
  reads_lineBound (reads_keywordStatement h) s

/-! ### Scripts -/

theorem reads_rule : ∀ goal s, Reads (rule self goal) s (Each Neat)
  | .sequence  => reads_sequence h
  | .value     => reads_value h
  | .unary     => reads_unary h
  | .base      => reads_base h
  | .pattern   => reads_pattern h
  | .signature => reads_signature h
  | .block     => reads_block h
  | .classBody => reads_classBody h
  | .markup    => reads_element h
  | .reference => reads_reference h
  | .type      => reads_type h
  | .statement => reads_statement h

omit h in
theorem reads_grammar : ∀ n goal s, Reads (grammar n goal) s (Each Neat)
  | 0, _, _     => yields_failHere
  | n + 1, _, _ => reads_rule (reads_grammar n) _ _

/-- A statement of a script; a fault at the end of the text is told on its line. -/
def programStatement (self : Rules) : Step Forest := fun c =>
  (self .statement c).mapError (blame c.look.line)

omit h in
theorem program_eq : program self = repeatWhile (do
    htmlComments
    let c ← get
    if c.look.shape == .finish then
      let last ← takeComments fun _ => true
      return if last.isEmpty then none else some last
    else
      let item ← programStatement self
      return some item) :=
  rfl

theorem reads_program (s : Cursor) : Reads (program self) s (Each Neat) := by
  have item : ∀ s, Reads (programStatement self) s (Each Neat) := fun s =>
    yields_mapError (h .statement s) fun c => blame c.look.line
  rw [program_eq]
  mvcgen [item] <;> intros <;> simp_all

end Rules

theorem sound_start (dialect : Dialect) (source : List Char) :
    Sound (Cursor.start dialect source) := by
  unfold Cursor.start
  dsimp only
  split
  · next cs =>
      exact Look.sound_scanFrom
        ⟨List.forall_mem_nil _, iff_of_false (by decide) (by decide), .refl _⟩
  · exact Look.sound_scan source 1

/-- **The trees of a script are neat and spell its text.** -/
theorem reads_of_parse {dialect : Dialect} {source : List Char} {forest : Forest}
    (h : parse dialect source = .ok forest) :
    Each Neat forest ∧ Tree.faithful forest source = true := by
  unfold parse at h
  dsimp only at h
  split at h
  · cases h
  · next trees c hrun =>
      cases h
      exact faithful_of_reads (reads_program (reads_grammar _) _)
        ⟨sound_start dialect source, rfl⟩ hrun

end ArchReview.Script

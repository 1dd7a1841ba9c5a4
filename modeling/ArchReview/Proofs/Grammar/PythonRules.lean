import ArchReview.Proofs.Grammar.PythonTrees
import ArchReview.Proofs.Grammar.Steps

/-!
# What the rules of the Python grammar read

Each rule has one triple (`Reads`; `Continues` if it takes up trees that were read before).  The
rules of expressions and of simple statements read plain trees, the rules of compound statements
upright ones: a definition is read only as a statement, and statements only in suites.  Rules call
each other through goals, so a rule's triple rests on those of the goals below it (`Fits`), and the
grammar's follows by induction on its depth.

**The trees of a module are upright, and they spell its text** (`reads_of_parse`).
-/

set_option mvcgen.warning false

namespace ArchReview.Python

open Grammar Grammar.Located Std.Do

/-! ### Tokens -/

@[simp]
theorem spot_mk {c : Cursor} {bound : Bool} {indents : List Nat} {look : Look} :
    spot (⟨c.chars, c.line, bound, indents, look⟩ : Cursor) = spot c := rfl

@[simp]
theorem sound_mk {c : Cursor} {bound : Bool} {indents : List Nat} :
    Sound (⟨c.chars, c.line, bound, indents, c.look⟩ : Cursor) ↔ Sound c := Iff.rfl

@[simp]
theorem spot_enter {c : Cursor} : spot c.enter = spot c := rfl

@[simp]
theorem sound_enter {c : Cursor} : Sound c.enter ↔ Sound c :=
  ⟨fun h => ⟨h.plain, h.passes⟩, fun h => ⟨h.plain, h.passes⟩⟩

theorem sound_moveTo (c : Cursor) (chars : List Char) (line : Nat) : Sound (c.moveTo chars line) :=
  Look.sound_scan chars line

@[spec]
theorem yields_ahead (s : Cursor) : Yields ahead s fun _ s' => s' = s := by
  mvcgen [ahead]

@[spec]
theorem reads_take {kind : Kind} (hkind : kind.isDefinition = false) (s : Cursor) :
    Reads (take kind) s (Each Plain) := by
  refine yields_iff.mpr fun forest s' h hs => ?_
  unfold take at h
  split at h
  · cases h
  · next hne =>
      cases h
      refine ⟨?_, ?_, sound_moveTo _ _ _⟩
      · exact each_append.mpr
          ⟨List.forall_mem_map.mpr hs.plain, each_singleton.mpr (plain_leaf hkind)⟩
      · exact hs.passes.behind_leaf (by simpa using hne)

@[spec]
theorem reads_takeChars {kind : Kind} (hkind : kind.isDefinition = false) (length : Nat)
    (s : Cursor) : Reads (takeChars kind length) s (Each Plain) := by
  refine yields_iff.mpr fun forest s' h _ => ?_
  cases h
  refine ⟨?_, ?_, sound_moveTo _ _ _⟩
  · split
    · exact each_nil
    · exact each_singleton.mpr (plain_leaf hkind)
  · exact Tree.behind_take s.line s.chars length

@[spec]
theorem reads_symbol (text : String) (s : Cursor) : Reads (symbol text) s (Each Plain) := by
  mvcgen [symbol] <;> simp_all

@[spec]
theorem reads_symbol? (text : String) (s : Cursor) : Reads (symbol? text) s (Each Plain) := by
  mvcgen [symbol?] <;> simp_all

@[spec]
theorem reads_name (s : Cursor) : Reads name s (Each Plain) := by
  mvcgen [name]
  simp_all

@[spec]
theorem reads_within {p : Step Forest} (h : ∀ s, Reads p s (Each Plain)) (s : Cursor) :
    Reads (within p) s (Each Plain) := by
  mvcgen [within, h]
  simp_all +zetaDelta

@[spec]
theorem reads_many {step : Step (Option Forest)} (h : ∀ s, MayRead step s (Each Plain))
    (s : Cursor) : Reads (repeatWhile step) s (Each Plain) :=
  reads_repeatWhile h s

@[spec]
theorem reads_commaList {item : Step Forest} {stops : Cursor → Bool}
    (h : ∀ s, Reads item s (Each Plain)) (s : Cursor) :
    Reads (commaList item stops) s (Each Plain) :=
  reads_separated h (reads_symbol? ",") s

@[spec]
theorem continues_growth {step : Forest → Step (Option Forest)}
    (h : ∀ tree s, MayContinue tree (step tree) s (Each Plain)) (tree : Forest) (s : Cursor) :
    Continues tree (Each Plain tree) (extend step tree) s (Each Plain) :=
  continues_extend h tree s

/-! ### Expressions -/

/-- What the reader of a goal answers. -/
def Fits : Goal → Forest → Prop
  | .suite, forest | .statement, forest => Each Upright forest
  | _, forest                           => Each Plain forest

section Rules

variable {self : Rules} (h : ∀ goal s, Reads (self goal) s (Fits goal))
include h

theorem reads_stringTail (q : Quoting) : ∀ n s, Reads (stringTail self q n) s (Each Plain)
  | 0, _ => yields_failHere
  | n + 1, s => by
      have ih := reads_stringTail q n
      -- the library's triple for `throw` leaves the monad below open
      mvcgen [stringTail, h, ih, throw_spec, -Spec.throw_MonadExcept] <;> intros <;> simp_all [Fits]

theorem reads_string (s : Cursor) : Reads (string self) s (Each Plain) := by
  have tail := reads_stringTail h
  mvcgen [string, tail]
  intros
  simp_all

theorem reads_strings (s : Cursor) : Reads (strings self) s (Each Plain) := by
  have one := reads_string h
  mvcgen [strings, one] <;> intros <;> simp_all

theorem reads_starred (s : Cursor) : Reads (starred self) s (Each Plain) := by
  mvcgen [starred, h] <;> intros <;> simp_all [Fits]

theorem reads_expressions (s : Cursor) : Reads (expressions self) s (Each Plain) := by
  have item := reads_starred h
  mvcgen [expressions, starredList, item]
  simp_all

theorem reads_yieldOrExpressions (s : Cursor) : Reads (yieldOrExpressions self) s (Each Plain) := by
  have values := reads_expressions h
  mvcgen [yieldOrExpressions, yieldTail, values, h] <;> intros <;> simp_all [Fits]

theorem reads_formatTail : ∀ n s, Reads (formatTail self n) s (Each Plain)
  | 0, _ => yields_failHere
  | n + 1, s => by
      have ih := reads_formatTail n
      mvcgen [formatTail, ih, h] <;> intros <;> simp_all [Fits]

theorem reads_interpolation (s : Cursor) : Reads (interpolation self) s (Each Plain) := by
  have value := reads_yieldOrExpressions h
  have format := reads_formatTail h
  mvcgen [interpolation, value, format] <;> intros <;> simp_all

theorem reads_forClause (s : Cursor) : Reads (forClause self) s (Each Plain) := by
  mvcgen [forClause, h] <;> intros <;> simp_all [Fits]

theorem reads_ifClause (s : Cursor) : Reads (ifClause self) s (Each Plain) := by
  mvcgen [ifClause, h] <;> intros <;> simp_all [Fits]

theorem reads_clauses (s : Cursor) : Reads (clauses self) s (Each Plain) := by
  have loop := reads_forClause h
  have test := reads_ifClause h
  mvcgen [clauses, loop, test] <;> intros <;> simp_all

theorem reads_argument (s : Cursor) : Reads (argument self) s (Each Plain) := by
  have item := reads_starred h
  mvcgen [argument, item, h]
  intros
  simp_all [Fits]

theorem reads_arguments (s : Cursor) : Reads (arguments self) s (Each Plain) := by
  have item := reads_argument h
  have loops := reads_clauses h
  mvcgen [arguments, item, loops] <;> intros <;> simp_all

theorem reads_parenthesized (s : Cursor) : Reads (parenthesized self) s (Each Plain) := by
  have item := reads_starred h
  have loops := reads_clauses h
  have value := reads_yieldOrExpressions h
  mvcgen [parenthesized, starredList, item, loops, value] <;> intros <;> simp_all

theorem reads_bracketed (s : Cursor) : Reads (bracketed self) s (Each Plain) := by
  have item := reads_starred h
  have loops := reads_clauses h
  have value := reads_yieldOrExpressions h
  mvcgen [bracketed, item, loops, value] <;> intros <;> simp_all

theorem reads_braced (s : Cursor) : Reads (braced self) s (Each Plain) := by
  have item := reads_starred h
  have loops := reads_clauses h
  mvcgen [braced, entry, item, loops, h] <;> intros <;> simp_all [Fits]

theorem reads_indices (s : Cursor) : Reads (indices self) s (Each Plain) := by
  have item := reads_starred h
  mvcgen [indices, index, item, h] <;> intros <;> simp_all [Fits]

theorem reads_tupleParameter (s : Cursor) : Reads (tupleParameter self) s (Each Plain) := by
  have names := reads_parenthesized h
  mvcgen [tupleParameter, names]
  intros
  simp_all

theorem reads_parameter (typed : Bool) (s : Cursor) :
    Reads (parameter self typed) s (Each Plain) := by
  have type := reads_starred h
  have names := reads_tupleParameter h
  -- what a rule names by `let` and the fields of the cursor that it sets are local definitions
  mvcgen [parameter, type, names, h] <;> intros <;> simp_all +zetaDelta [Fits]

theorem reads_lambda (s : Cursor) : Reads (lambda self) s (Each Plain) := by
  have item := reads_parameter h
  mvcgen [lambda, item, h]
  intros
  simp_all [Fits]

theorem reads_atom (s : Cursor) : Reads (atom self) s (Each Plain) := by
  have text := reads_strings h
  have round := reads_parenthesized h
  have square := reads_bracketed h
  have curly := reads_braced h
  mvcgen [atom, text, round, square, curly] <;> intros <;> simp_all

theorem reads_operand (s : Cursor) : Reads (operand self) s (Each Plain) := by
  have base := reads_atom h
  have call := reads_arguments h
  have items := reads_indices h
  mvcgen [operand, trailer, base, call, items] <;> intros <;> simp_all

theorem reads_unary (s : Cursor) : Reads (unary self) s (Each Plain) := by
  have value := reads_operand h
  mvcgen [unary, power, awaited, value, h] <;> intros <;> simp_all [Fits]

omit h in
theorem reads_joined (kind : Kind) (hfunction : kind ≠ .functionDefinition)
    (hclass : kind ≠ .classDefinition) (marks : List String) {next : Step Forest}
    (hnext : ∀ s, Reads next s (Each Plain)) (s : Cursor) :
    Reads (joined kind marks next) s (Each Plain) := by
  mvcgen [joined, hnext] <;> intros <;> simp_all

theorem reads_bitwise (s : Cursor) : Reads (bitwise self) s (Each Plain) := by
  have joins : ∀ marks {next}, (∀ s, Reads next s (Each Plain)) →
      ∀ s, Reads (joined .phrase marks next) s (Each Plain) :=
    fun marks _ hnext => reads_joined .phrase (by decide) (by decide) marks hnext
  exact joins _ (joins _ (joins _ (joins _ (joins _ (joins _ (reads_unary h)))))) s

theorem reads_comparison (s : Cursor) : Reads (comparison self) s (Each Plain) := by
  have value := reads_bitwise h
  mvcgen [comparison, comparator?, value] <;> intros <;> simp_all

theorem reads_negation (s : Cursor) : Reads (negation self) s (Each Plain) := by
  have value := reads_comparison h
  mvcgen [negation, value, h] <;> intros <;> simp_all [Fits]

theorem reads_disjunction (s : Cursor) : Reads (disjunction self) s (Each Plain) := by
  have function := reads_lambda h
  have operand := reads_negation h
  have conjunction := reads_joined .booleanOperator (by decide) (by decide) ["and"] operand
  have choice := reads_joined .booleanOperator (by decide) (by decide) ["or"] conjunction
  mvcgen [disjunction, function, choice] <;> simp_all

theorem reads_expression (s : Cursor) : Reads (expression self) s (Each Plain) := by
  have value := reads_disjunction h
  mvcgen [expression, value, h] <;> intros <;> simp_all [Fits]

/-! ### Simple statements

No simple statement holds a definition: what it is made of are expressions. -/

omit h

@[spec]
theorem reads_dottedName (s : Cursor) : Reads dottedName s (Each Plain) := by
  mvcgen [dottedName] <;> intros <;> simp_all

@[spec]
theorem reads_importedName (s : Cursor) : Reads importedName s (Each Plain) := by
  mvcgen [importedName] <;> intros <;> simp_all

theorem reads_importStatement (s : Cursor) : Reads importStatement s (Each Plain) := by
  mvcgen [importStatement] <;> intros <;> simp_all

theorem reads_importFrom (s : Cursor) : Reads importFrom s (Each Plain) := by
  mvcgen [importFrom, moduleName] <;> intros <;> simp_all

theorem reads_nameList (s : Cursor) : Reads nameList s (Each Plain) := by
  mvcgen [nameList]

include h

theorem continues_assignedTo : ∀ n targets s,
    Continues targets (Each Plain targets) (assignedTo self n targets) s (Each Plain)
  | 0, _, _ => yields_failHere
  | n + 1, targets, s => by
      have ih := continues_assignedTo n
      have value := reads_yieldOrExpressions h
      mvcgen [assignedTo, value, ih, h] <;> intros <;> simp_all [Fits]

theorem reads_expressionStatement (s : Cursor) :
    Reads (expressionStatement self) s (Each Plain) := by
  have item := reads_starred h
  have value := reads_yieldOrExpressions h
  have chain := continues_assignedTo h
  mvcgen [expressionStatement, starredList, value, chain, item] <;> intros <;> simp_all +zetaDelta

theorem reads_raiseStatement (s : Cursor) : Reads (raiseStatement self) s (Each Plain) := by
  have value := reads_expressions h
  mvcgen [raiseStatement, value, h] <;> intros <;> simp_all [Fits]

theorem reads_typeParameters (s : Cursor) : Reads (typeParameters self) s (Each Plain) := by
  have item := reads_starred h
  mvcgen [typeParameters, item, h] <;> intros <;> simp_all [Fits]

theorem reads_typeAlias (s : Cursor) : Reads (typeAlias self) s (Each Plain) := by
  have parameters := reads_typeParameters h
  mvcgen [typeAlias, parameters, h]
  intros
  simp_all [Fits]

theorem reads_plainList (s : Cursor) : Reads (plainList self) s (Each Plain) := by
  mvcgen [plainList, h] <;> intros <;> simp_all [Fits]

theorem reads_printStatement (s : Cursor) : Reads (printStatement self) s (Each Plain) := by
  mvcgen [printStatement, h] <;> intros <;> simp_all [Fits]

theorem reads_execStatement (s : Cursor) : Reads (execStatement self) s (Each Plain) := by
  have code := reads_string h
  have scope := reads_plainList h
  mvcgen [execStatement, code, scope] <;> intros <;> simp_all

theorem reads_simpleStatement (s : Cursor) : Reads (simpleStatement self) s (Each Plain) := by
  have imports := reads_importStatement
  have froms := reads_importFrom
  have names := reads_nameList
  have raises := reads_raiseStatement h
  have values := reads_expressions h
  have value := reads_expressionStatement h
  have list := reads_plainList h
  have prints := reads_printStatement h
  have execs := reads_execStatement h
  have aliases := fun s => yields_orTry (reads_typeAlias h s) (value s)
  mvcgen [simpleStatement, imports, froms, names, raises, values, value, list, prints, execs,
    aliases] <;> intros <;> simp_all

theorem reads_simpleLoop : ∀ n s, Reads (simpleLoop self n) s (Each Plain)
  | 0, _ => yields_failHere
  | n + 1, s => by
      have one := reads_simpleStatement h
      have ih := reads_simpleLoop n
      mvcgen [simpleLoop, one, ih] <;> intros <;> simp_all

theorem reads_simpleStatements (s : Cursor) : Reads (simpleStatements self) s (Each Plain) := by
  have loop := reads_simpleLoop h
  mvcgen [simpleStatements, loop]
  simp_all

/-! ### Patterns -/

theorem reads_patternGroup (closing : String) (s : Cursor) :
    Reads (patternGroup self closing) s (Each Plain) := by
  mvcgen [patternGroup, patternList, h] <;> intros <;> simp_all [Fits]

theorem reads_mappingPattern (s : Cursor) : Reads (mappingPattern self) s (Each Plain) := by
  mvcgen [mappingPattern, mappingEntry, h] <;> intros <;> simp_all [Fits]

omit h in
theorem reads_numberPattern (s : Cursor) : Reads numberPattern s (Each Plain) := by
  mvcgen [numberPattern] <;> intros <;> simp_all

theorem reads_namePattern (s : Cursor) : Reads (namePattern self) s (Each Plain) := by
  have group := reads_patternGroup h
  mvcgen [namePattern, group, h] <;> intros <;> simp_all [Fits]

theorem reads_closedPattern (s : Cursor) : Reads (closedPattern self) s (Each Plain) := by
  have text := reads_strings h
  have number := reads_numberPattern
  have named := reads_namePattern h
  have group := reads_patternGroup h
  have mapping := reads_mappingPattern h
  mvcgen [closedPattern, text, number, named, group, mapping] <;> intros <;> simp_all

theorem reads_casePattern (s : Cursor) : Reads (casePattern self) s (Each Plain) := by
  have choice := reads_joined .phrase (by decide) (by decide) ["|"] (reads_closedPattern h)
  mvcgen [casePattern, choice] <;> intros <;> simp_all

/-! ### Suites

From here on definitions are read, as the statements of a block. -/

omit h in
theorem reads_takeTrivia (indent : Nat) (s : Cursor) :
    Reads (takeTrivia indent) s (Each Upright) := by
  refine yields_iff.mpr fun forest s' h hs => ?_
  cases h
  have hfirst : ∀ p q (ts : List Trivium),
      ((ts.takeWhile p).reverse.dropWhile q).reverse <+: ts := fun p q ts =>
    (List.reverse_prefix.mpr (List.dropWhile_suffix q)).trans
      (by rw [List.reverse_reverse]; exact List.takeWhile_prefix p)
  obtain ⟨hplain, hbehind, hsound⟩ := Look.Sound.drop hs (hfirst _ _ _)
  exact ⟨each_upright_of_plain hplain, hbehind, hsound⟩

theorem reads_blockLoop : ∀ n s, Reads (blockLoop self n) s (Each Upright)
  | 0, _ => yields_failHere
  | n + 1, s => by
      have trivia := reads_takeTrivia
      have ih := reads_blockLoop n
      mvcgen [blockLoop, trivia, h, ih]
      intros
      simp_all +zetaDelta [Fits]

omit h in
@[spec]
theorem reads_indented {p : Step Forest} (h : ∀ s, Reads p s (Each Upright)) (s : Cursor) :
    Reads (indented p) s (Each Upright) := by
  have block := each_upright_open .block fun _ => rfl
  mvcgen [indented, h] <;> intros <;> simp_all +zetaDelta

theorem reads_suite (s : Cursor) : Reads (suite self) s (Each Upright) := by
  have block := each_upright_open .block fun _ => rfl
  have loop := reads_blockLoop h
  have line := reads_simpleStatements h
  mvcgen [suite, loop, line] <;> intros <;> simp_all +zetaDelta

theorem reads_colonSuite (s : Cursor) : Reads (colonSuite self) s (Each Suited) := by
  mvcgen [colonSuite, h]
  intros
  simp_all [Fits]

/-! ### Compound statements

A clause passes on the suite that it ends with.  Only a definition and its decorators ask for more:
that there is nothing but the suite, or the subject, in which definitions stand. -/

omit h in
theorem reads_manyUpright {step : Step (Option Forest)} (h : ∀ s, MayRead step s (Each Upright))
    (s : Cursor) : Reads (repeatWhile step) s (Each Upright) :=
  reads_repeatWhile h s

theorem reads_elseClause? (s : Cursor) : Reads (elseClause? self) s (Each Upright) := by
  have clause := each_upright_open .phrase fun _ => rfl
  have body := reads_colonSuite h
  mvcgen [elseClause?, header, body] <;> intros <;> simp_all +zetaDelta

theorem reads_elifClauses (s : Cursor) : Reads (elifClauses self) s (Each Upright) := by
  have clause := each_upright_open .elifClause fun _ => rfl
  have body := reads_colonSuite h
  mvcgen [elifClauses, elifClauses.header?, reads_manyUpright, -reads_many, body, h] <;> intros <;>
    simp_all +zetaDelta [Fits]

theorem reads_ifStatement (s : Cursor) : Reads (ifStatement self) s (Each Upright) := by
  have whole := each_upright_open .ifStatement fun _ => rfl
  have body := reads_colonSuite h
  have elifs := reads_elifClauses h
  have other := reads_elseClause? h
  mvcgen [ifStatement, header, body, elifs, other, h]
  intros
  simp_all +zetaDelta [Fits]

theorem reads_whileStatement (s : Cursor) : Reads (whileStatement self) s (Each Upright) := by
  have whole := each_upright_open .whileStatement fun _ => rfl
  have body := reads_colonSuite h
  have other := reads_elseClause? h
  mvcgen [whileStatement, header, body, other, h]
  intros
  simp_all +zetaDelta [Fits]

theorem continues_forStatement (async : Forest) (s : Cursor) :
    Continues async (Each Plain async) (forStatement self async) s (Each Upright) := by
  have whole := each_upright_open .forStatement fun _ => rfl
  have values := reads_expressions h
  have body := reads_colonSuite h
  have other := reads_elseClause? h
  mvcgen [forStatement, header, values, body, other, h] <;> intros <;> simp_all +zetaDelta [Fits]

theorem continues_withStatement (async : Forest) (s : Cursor) :
    Continues async (Each Plain async) (withStatement self async) s (Each Upright) := by
  have whole := each_upright_open .phrase fun _ => rfl
  have items := reads_expressions h
  have body := reads_colonSuite h
  mvcgen [withStatement, header, items, body]
  intros
  simp_all +zetaDelta

theorem reads_exceptClauses (s : Cursor) : Reads (exceptClauses self) s (Each Upright) := by
  have clause := each_upright_open .phrase fun _ => rfl
  have value := reads_expressions h
  have body := reads_colonSuite h
  mvcgen [exceptClauses, reads_manyUpright, -reads_many, value, body] <;> intros <;>
    simp_all +zetaDelta

theorem reads_tryStatement (s : Cursor) : Reads (tryStatement self) s (Each Upright) := by
  have whole := each_upright_open .phrase fun _ => rfl
  have body := reads_colonSuite h
  have handlers := reads_exceptClauses h
  have other := reads_elseClause? h
  mvcgen [tryStatement, finallyClause?, header, body, handlers, other] <;> intros <;>
    simp_all +zetaDelta

theorem continues_functionDefinition (async : Forest) (s : Cursor) :
    Continues async (Each Plain async) (functionDefinition self async) s (Each Upright) := by
  have whole := each_upright_suited .functionDefinition fun _ => rfl
  have generics := reads_typeParameters h
  have item := reads_parameter h
  have body := reads_colonSuite h
  mvcgen [functionDefinition, header, generics, item, body, h] <;> intros <;>
    simp_all +zetaDelta [Fits]

theorem reads_classDefinition (s : Cursor) : Reads (classDefinition self) s (Each Upright) := by
  have whole := each_upright_suited .classDefinition fun _ => rfl
  have generics := reads_typeParameters h
  have bases := reads_arguments h
  have body := reads_colonSuite h
  mvcgen [classDefinition, header, generics, bases, body] <;> intros <;> simp_all +zetaDelta

theorem reads_definition (s : Cursor) : Reads (definition self) s (Each Upright) := by
  have function := continues_functionDefinition h
  have type := reads_classDefinition h
  mvcgen [definition, function, type] <;> intros <;> simp_all

theorem reads_decorated (s : Cursor) : Reads (decorated self) s (Each Upright) := by
  have subject := reads_definition h
  mvcgen [decorated, decorators, subject, h] <;> intros <;>
    simp_all +zetaDelta [Fits, each_upright_decorated]

theorem reads_caseClause (s : Cursor) : Reads (caseClause self) s (Each Upright) := by
  have clause := each_upright_open .caseClause fun _ => rfl
  have body := reads_colonSuite h
  mvcgen [caseClause, header, body, h] <;> intros <;> simp_all +zetaDelta [Fits]

theorem reads_caseLoop : ∀ n s, Reads (caseLoop self n) s (Each Upright)
  | 0, _ => yields_failHere
  | n + 1, s => by
      have trivia := reads_takeTrivia
      have clause := reads_caseClause h
      have ih := reads_caseLoop n
      mvcgen [caseLoop, trivia, clause, ih]
      intros
      simp_all +zetaDelta

theorem reads_matchHead (s : Cursor) : Reads (matchHead self) s (Each Plain) := by
  have subject := reads_starred h
  mvcgen [matchHead, subject] <;> intros <;> simp_all +zetaDelta

theorem mayRead_matchHead? (s : Cursor) : MayRead (matchHead? self) s (Each Plain) := by
  have head := reads_matchHead h
  have tried : ∀ s, MayRead (orTry (some <$> matchHead self) (return none)) s (Each Plain) := by
    refine fun s => yields_orTry ?_ ?_
    · mvcgen [head]
      intros
      simp_all
    · mvcgen
      intros
      simp_all
  mvcgen [matchHead?, tried] <;> intros <;> simp_all

theorem continues_matchStatement (head : Forest) (s : Cursor) :
    Continues head (Each Plain head) (matchStatement self head) s (Each Upright) := by
  have whole := each_upright_open .matchStatement fun _ => rfl
  have loop := reads_caseLoop h
  mvcgen [matchStatement, loop] <;> intros <;> simp_all

theorem reads_statement (s : Cursor) : Reads (statement self) s (Each Upright) := by
  have ifs := reads_ifStatement h
  have fors := continues_forStatement h
  have whiles := reads_whileStatement h
  have tries := reads_tryStatement h
  have withs := continues_withStatement h
  have functions := continues_functionDefinition h
  have classes := reads_classDefinition h
  have decorations := reads_decorated h
  have definitions := reads_definition h
  have head := mayRead_matchHead? h
  have matched := continues_matchStatement h
  have line := reads_simpleStatements h
  mvcgen [statement, ifs, fors, whiles, tries, withs, functions, classes, decorations, definitions,
    head, matched, line] <;> intros <;> simp_all

/-! ### Modules -/

theorem reads_rule : ∀ goal s, Reads (rule self goal) s (Fits goal)
  | .expression    => reads_expression h
  | .disjunction   => reads_disjunction h
  | .negation      => reads_negation h
  | .unary         => reads_unary h
  | .operand       => reads_operand h
  | .interpolation => reads_interpolation h
  | .casePattern   => reads_casePattern h
  | .suite         => reads_suite h
  | .statement     => reads_statement h

omit h in
theorem reads_grammar : ∀ n goal s, Reads (grammar n goal) s (Fits goal)
  | 0, _, _     => yields_failHere
  | n + 1, _, _ => reads_rule (reads_grammar n) _ _

/-- A statement of a module; a fault at the end of the text is told on its line. -/
def moduleStatement (self : Rules) : Step Forest := fun c =>
  (self .statement c).mapError (blame c.look.line)

omit h in
theorem moduleLoop_succ (n : Nat) : moduleLoop self (n + 1) = (do
    let c ← get
    if c.look.shape == .finish then takeTrivia 0
    else
      modify Cursor.enter
      let first ← moduleStatement self
      let rest ← moduleLoop self n
      return first ++ rest) :=
  rfl

theorem reads_moduleStatement (s : Cursor) : Reads (moduleStatement self) s (Each Upright) :=
  yields_mapError (h .statement s) fun c => blame c.look.line

theorem reads_moduleLoop : ∀ n s, Reads (moduleLoop self n) s (Each Upright)
  | 0, _ => yields_failHere
  | n + 1, s => by
      have trivia := reads_takeTrivia
      have first := reads_moduleStatement h
      have ih := reads_moduleLoop n
      rw [moduleLoop_succ]
      mvcgen [trivia, first, ih]
      intros
      simp_all +zetaDelta

end Rules

/-- **The trees of a module are upright and spell its text.** -/
theorem reads_of_parse {source : List Char} {forest : Forest} (h : parse source = .ok forest) :
    Each Upright forest ∧ Tree.faithful forest source = true := by
  unfold parse at h
  dsimp only at h
  split at h
  · cases h
  · next trees c hrun =>
      cases h
      exact faithful_of_reads (reads_moduleLoop (reads_grammar _) _ _)
        ⟨Look.sound_scan source 1, rfl⟩ hrun

end ArchReview.Python

import ArchReview.Tree.Basic

/-!
# Kinds of Python syntax

The constructs that the reading of a Python module tells apart. Punctuation and keywords are
`symbol`s; every construct that is only passed through is a `phrase`.
-/

namespace ArchReview.Python

inductive Kind where
  | aliasedImport
  | argumentList
  | assignment
  | attribute
  | block
  | booleanOperator
  | call
  | caseClause
  | classDefinition
  | comment
  | comparison
  | continuation
  | decorated
  | decorator
  | defaultParameter
  | dottedName
  | elifClause
  | ellipsis
  | expressionStatement
  | forStatement
  | functionDefinition
  | futureImport
  | generator
  | globalStatement
  | identifier
  | ifStatement
  | importFrom
  | importStatement
  | keywordArgument
  | listSplat
  | mapSplat
  | matchStatement
  | number
  | parenthesized
  | passStatement
  | phrase
  | raiseStatement
  | string
  | symbol
  | tuple
  | list
  | subscript
  | typedParameter
  | unaryOperator
  | whileStatement
  | wildcardImport
  deriving DecidableEq, Repr, Inhabited

/-- A syntax tree of a Python module. -/
abbrev Tree := ArchReview.Tree Kind

namespace Kind

/-- Trivia may stand between any two tokens. -/
def isTrivia : Kind → Bool
  | comment | continuation => true
  | _                      => false

/-- Everything but punctuation and keywords. -/
def isNamed (k : Kind) : Bool := k != symbol

end Kind

/-- The children that are not punctuation or keywords. -/
def namedChildren (t : Tree) : List Tree := t.children.filter fun c => c.kind.isNamed

end ArchReview.Python

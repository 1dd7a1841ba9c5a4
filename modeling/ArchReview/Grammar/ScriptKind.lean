import ArchReview.Tree.Basic

/-!
# Kinds of JavaScript and TypeScript syntax

The constructs that the reading of a script tells apart. Punctuation and keywords are `symbol`s;
every construct that is only passed through is a `phrase`.
-/

namespace ArchReview.Script

inductive Kind where
  | abstractClass
  | abstractMethod
  | accessibility
  | arguments
  | arrayLiteral
  | arrayPattern
  | arrowFunction
  | assignment
  | assignmentPattern
  | augmentedAssignment
  | binary
  | block
  | call
  | classDeclaration
  | classExpression
  | comment
  | declarator
  | decorator
  | doStatement
  | elseClause
  | enumDeclaration
  | exportClause
  | exportStatement
  | extendsClause
  | extendsTypes
  | field
  | forIn
  | forStatement
  | functionDeclaration
  | functionExpression
  | generatorDeclaration
  | heritage
  | htmlComment
  | identifier
  | ifStatement
  | implementsClause
  | importClause
  | importRequire
  | importSpecifier
  | importStatement
  | instantiation
  | interfaceDeclaration
  | lexicalDeclaration
  | member
  | method
  | methodSignature
  | namedImports
  | namespaceExport
  | namespaceImport
  | number
  | objectLiteral
  | objectPattern
  | optionalParameter
  | pair
  | pairPattern
  | parenthesized
  | phrase
  | privateName
  | propertyName
  | propertySignature
  | requiredParameter
  | restPattern
  | shorthand
  | shorthandPattern
  | spread
  | string
  | switchCase
  | switchStatement
  | symbol
  | template
  | this
  | throwStatement
  | typeIdentifier
  | unary
  | update
  | variableDeclaration
  | whileStatement
  deriving DecidableEq, Repr, Inhabited

/-- A syntax tree of a script. -/
abbrev Tree := ArchReview.Tree Kind

namespace Kind

/-- Comments may stand between any two tokens. -/
def isTrivia : Kind → Bool
  | comment | htmlComment => true
  | _                     => false

/-- Everything but punctuation and keywords. -/
def isNamed (k : Kind) : Bool := k != symbol

end Kind

/-- The children that are not punctuation or keywords. -/
def namedChildren (t : Tree) : List Tree := t.children.filter fun c => c.kind.isNamed

end ArchReview.Script

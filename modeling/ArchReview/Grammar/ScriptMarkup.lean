import ArchReview.Grammar.ScriptExpression

/-!
# Markup in scripts

Elements with attributes and children. Between the tags of an element every character counts, so
children are read from the raw text; inside braces stands an expression.
-/

namespace ArchReview.Script

open Grammar

/-- Words of markup may hold dashes. -/
def markupWord (kind : Kind) : Step Forest := do
  let c ← get
  if c.look.shape == .word then
    takePart kind (c.look.start.takeWhile fun ch => isWordChar ch || ch == '-').length
  else failHere

/-- The name of an element: a word, a word in a namespace, or a member of a value. -/
def elementName : Step Forest := do
  let first ← markupWord .identifier
  if (← ahead) == ":" then
    let colon ← take .symbol
    let second ← markupWord .identifier
    return node .phrase (first ++ colon ++ second)
  else extend (fun tree => do
    if (← ahead) == "." then
      let dot ← take .symbol
      let part ← markupWord .propertyName
      return some (node .member (withRole .object tree ++ dot ++ withRole .property part))
    else return none) first

/-- An expression in braces; it may be spread or left out. -/
def embedded (self : Rules) : Step Forest := within do
  let opening ← symbol "\x7b"
  let inside ←
    if (← ahead) == "\x7d" then pure []
    else if (← ahead) == "..." then do
      let dots ← take .symbol
      let value ← self .value
      pure (node .spread (dots ++ value))
    else self .sequence
  let closing ← symbol "\x7d"
  return node .phrase (opening ++ inside ++ closing)

/-- A string of an attribute: everything up to the same quote. -/
def markupString : Step Forest := do
  let c ← get
  match c.look.start with
  | quote :: rest =>
    let body := rest.takeWhile fun ch => ch != quote
    if (quote == '"' || quote == '\'') && body.length < rest.length then
      takePart .string (body.length + 2)
    else failHere
  | []            => failHere

def attributeName : Step Forest := do
  let c ← get
  if c.look.shape != .word then failHere
  let length := (c.look.start.takeWhile fun ch => isWordChar ch || ch == '-').length
  if (c.look.start.drop length).head? == some ':' then
    let first ← takePart .identifier length
    let colon ← symbol ":"
    let second ← markupWord .identifier
    return node .phrase (first ++ colon ++ second)
  else takePart .propertyName length

def elementAttribute (self : Rules) : Step Forest := do
  let title ← attributeName
  if (← ahead) == "=" then
    let equals ← take .symbol
    let c ← get
    let value ←
      if c.ahead == "\x7b" then embedded self
      else if c.ahead == "<" then self .markup
      else markupString
    return node .phrase (title ++ equals ++ value)
  else return node .phrase title

def attributes (self : Rules) : Step Forest := repeatWhile do
  let c ← get
  if c.look.shape == .word then return some (← elementAttribute self)
  else if c.ahead == "\x7b" then return some (← embedded self)
  else return none

def atClosingTag : List Char → Bool
  | '<' :: '/' :: _ => true
  | _               => false

def children (self : Rules) : Step Forest := repeatWhile do
  let text := (← get).chars.takeWhile fun ch => ch != '<' && ch != '\x7b'
  let inside ← takeChars .phrase text.length
  let rest := (← get).chars
  if atClosingTag rest then
    return if inside.isEmpty then none else some inside
  else match rest with
    | '<' :: _    => return some (inside ++ (← self .markup))
    | '\x7b' :: _ => return some (inside ++ (← embedded self))
    | _           => failHere

/-- The end of a tag. -/
def tagEnd : Step Forest := closeAngle

def closingTag : Step Forest := do
  let opening ← symbol "<"
  let slash ← symbol "/"
  let title ← when? (fun c => c.look.shape == .word) elementName
  let closing ← tagEnd
  return node .phrase (opening ++ slash ++ title ++ closing)

/-- An element, or a fragment without a name. -/
def element (self : Rules) : Step Forest := within do
  let opening ← symbol "<"
  let title ← when? (fun c => c.look.shape == .word) elementName
  let generics ← when? atAngle (typeArguments self)
  let items ← if title.isEmpty then pure [] else attributes self
  if (← ahead) == "/" && !title.isEmpty then
    let slash ← take .symbol
    let closing ← tagEnd
    return node .phrase (opening ++ title ++ generics ++ items ++ slash ++ closing)
  let end1 ← tagEnd
  let head := node .phrase (opening ++ title ++ generics ++ items ++ end1)
  let inside ← children self
  let tail ← closingTag
  return node .phrase (head ++ inside ++ tail)

end ArchReview.Script

import ArchReview.Grammar.ScriptParse

/-!
# Types in scripts

Type annotations, type parameters and arguments, and the types themselves. The type keywords
`number` and `string` are leaves of the kinds `number` and `string`.
-/

namespace ArchReview.Script

open Grammar

/-! ### Matching brackets -/

/-- What follows the closing backquote of a template. -/
def templateEnd : Nat → List Char → Option (List Char)
  | depth, '\\' :: _ :: cs      => templateEnd depth cs
  | 0, '`' :: cs                => some cs
  | 0, '$' :: '\x7b' :: cs      => templateEnd 1 cs
  | depth + 1, '\x7b' :: cs     => templateEnd (depth + 2) cs
  | depth + 1, '\x7d' :: cs     => templateEnd depth cs
  | depth, _ :: cs              => templateEnd depth cs
  | _, []                       => none

/-- The cursor behind the bracket that closes the one ahead. -/
def behindBracket : Nat → Nat → Cursor → Option Cursor
  | 0, _, _            => none
  | fuel + 1, depth, c =>
    match c.look.shape with
    | .finish    => none
    | .backquote =>
      match templateEnd 0 c.look.rest with
      | some rest => behindBracket fuel depth (c.moveTo rest c.look.line)
      | none      => none
    | .mark      =>
      if ["(", "[", "\x7b"].contains c.look.text then behindBracket fuel (depth + 1) c.next
      else if [")", "]", "\x7d"].contains c.look.text then
        if depth ≤ 1 then some c.next else behindBracket fuel (depth - 1) c.next
      else behindBracket fuel depth c.next
    | _          => behindBracket fuel depth c.next

/-- The mark after the brackets ahead. -/
def markBehindBrackets (c : Cursor) : String :=
  match behindBracket (c.chars.length + 1) 0 c with
  | some d => d.ahead
  | none   => ""

/-! ### Names -/

/-- The name of a property: a word, a literal, or an expression in brackets. -/
def propertyName (self : Rules) : Step Forest := do
  let c ← get
  match c.look.shape with
  | .word        => take .propertyName
  | .privateWord => take .privateName
  | .string      => take .string
  | .number      => take .number
  | _            =>
    if c.ahead == "[" then within do
      let opening ← take .symbol
      let value ← self .value
      let closing ← symbol "]"
      return node .phrase (opening ++ value ++ closing)
    else failHere

/-- `.name` after a namespace, any number of times; the names are properties of it. -/
def qualifiedName (kind : Kind) : Step Forest := do
  let first ← word kind
  extend (fun tree => do
    if (← ahead) == "." then
      let dot ← take .symbol
      let part ← word .propertyName
      return some (node .member (withRole .object tree ++ dot ++ withRole .property part))
    else return none) first

/-! ### Annotations, parameters and arguments of types -/

def typeMark (self : Rules) : Step Forest := do
  let colon ← symbol ":"
  let type ← self .type
  return withRole .type (node .phrase (colon ++ type))

def typeMark? (self : Rules) : Step Forest := when? (closes ":") (typeMark self)

/-- A condition that a function's result states about a parameter. -/
def predicate (self : Rules) : Step Forest := do
  let asserts ← if (← get).ahead == "asserts" && (← get).next.look.shape == .word
      && !(← get).next.look.fresh && (← get).next.ahead != "is" then take .symbol else pure []
  let subject ← if (← ahead) == "this" then take .this else word .identifier
  let judged ←
    if (← aheadTypeMark) == "is" then do
      let isWord ← take .symbol
      let type ← self .type
      pure (isWord ++ type)
    else if asserts.isEmpty then failHere
    else pure []
  return node .phrase (asserts ++ subject ++ judged)

def atPredicate (c : Cursor) : Bool :=
  c.look.shape == .word && c.next.look.shape == .word && !c.next.look.fresh &&
    (c.ahead == "asserts" || c.next.ahead == "is")

def resultAnnotation? (self : Rules) : Step Forest := when? (closes ":") do
  let colon ← take .symbol
  let type ← if atPredicate (← get) then predicate self else self .type
  return node .phrase (colon ++ type)

def typeParameter (self : Rules) : Step Forest := do
  let modifiers ← repeatWhile do
    let c ← get
    if ["const", "in", "out"].contains c.ahead && c.next.look.shape == .word then
      return some (← take .symbol)
    else return none
  let title ← word .typeIdentifier
  let limit ←
    if (← ahead) == "extends" then do
      let extendsWord ← take .symbol
      let type ← self .type
      pure (node .phrase (extendsWord ++ type))
    else pure []
  let default ←
    if (← ahead) == "=" then do
      let equals ← take .symbol
      let type ← self .type
      pure (node .phrase (equals ++ type))
    else pure []
  return node .phrase (modifiers ++ withRole .name title ++ limit ++ default)

def atAngle (c : Cursor) : Bool := c.ahead == "<"

def angleCloses (c : Cursor) : Bool := Text.startsWith c.ahead ">"

def typeParameters? (self : Rules) : Step Forest := when? atAngle <| within do
  let opening ← take .symbol
  let items ← commaList (typeParameter self) angleCloses
  let closing ← closeAngle
  return node .phrase (opening ++ items ++ closing)

def typeArguments (self : Rules) : Step Forest := within do
  if (← ahead) != "<" && (← ahead) != "<<" then failHere
  let opening ← takePart .symbol 1
  let items ← commaList (self .type) angleCloses
  let closing ← closeAngle
  return node .phrase (opening ++ items ++ closing)

/-! ### Parameters -/

/-- Comes before a parameter that is also a property. -/
def parameterModifiers : Step Forest := repeatWhile do
  let c ← get
  let follows := c.next.look.shape == .word || c.next.ahead == "[" || c.next.ahead == "\x7b"
  if isAccessibility c && follows then return some (← take .accessibility)
  else if c.ahead == "readonly" && follows then return some (← take .symbol)
  else if c.ahead == "override" && follows then return some (node .phrase (← take .symbol))
  else return none

def parameterPattern (self : Rules) : Step Forest := do
  if (← ahead) == "..." then
    let dots ← take .symbol
    let inside ← self .pattern
    return node .restPattern (dots ++ inside)
  else if (← ahead) == "this" then take .this
  else self .pattern

def decorator (self : Rules) : Step Forest := do
  let mark ← symbol "@"
  let value ← self .reference
  return node .decorator (mark ++ value)

def decorators (self : Rules) : Step Forest := repeatWhile do
  if (← ahead) == "@" then return some (← decorator self) else return none

def parameter (self : Rules) : Step Forest := do
  let marks ← decorators self
  let modifiers ← parameterModifiers
  let pattern ← parameterPattern self
  let question ← symbol? "?"
  let type ← typeMark? self
  let value ←
    if (← ahead) == "=" then do
      let equals ← take .symbol
      let value ← self .value
      pure (equals ++ withRole .value value)
    else pure []
  return node (if question.isEmpty then .requiredParameter else .optionalParameter)
    (marks ++ modifiers ++ withRole .pattern pattern ++ question ++ type ++ value)

def parameters (self : Rules) : Step Forest := within do
  let opening ← symbol "("
  let items ← commaList (parameter self) (closes ")")
  let closing ← symbol ")"
  return withRole .parameters (node .phrase (opening ++ items ++ closing))

/-- Type parameters, parameters and result of a function. -/
def signature (self : Rules) : Step Forest := do
  let generics ← typeParameters? self
  let items ← parameters self
  let result ← resultAnnotation? self
  return generics ++ items ++ result

/-! ### Members of object types -/

/-- The bracketed part of an index signature or a mapped type, and the type of its values. -/
def indexSignature (self : Rules) : Step Forest := do
  let inside ← within do
    let opening ← symbol "["
    let c ← get
    let inside ←
      if c.next.ahead == ":" then do
        let key ← word .identifier
        let colon ← take .symbol
        let type ← self .type
        pure (key ++ colon ++ type)
      else do
        let key ← word .typeIdentifier
        let inWord ← symbol "in"
        let type ← self .type
        let renamed ←
          if (← ahead) == "as" then do
            let asWord ← take .symbol
            let type ← self .type
            pure (asWord ++ type)
          else pure []
        pure (node .phrase (key ++ inWord ++ type ++ renamed))
    let closing ← symbol "]"
    pure (opening ++ inside ++ closing)
  let sign ← if (← ahead) == "-" || (← ahead) == "+" then take .symbol else pure []
  let question ← symbol? "?"
  let type ← typeMark? self
  return inside ++ sign ++ question ++ type

def atIndexSignature (c : Cursor) : Bool :=
  c.ahead == "[" && c.next.look.shape == .word &&
    (c.next.next.ahead == ":" || c.next.next.ahead == "in")

/-- Words in front of a member's name. -/
def memberModifiers : Step Forest := repeatWhile do
  let c ← get
  if isAccessibility c && isModifier c c.ahead then return some (← take .accessibility)
  else if ["static", "readonly", "get", "set", "async", "declare", "abstract", "accessor"].any
      (isModifier c) then return some (← take .symbol)
  else if isModifier c "override" then return some (node .phrase (← take .symbol))
  else return none

def typeMember (self : Rules) : Step Forest := do
  let c ← get
  if c.ahead == "(" || c.ahead == "<" then
    let s ← signature self
    return node .phrase s
  if c.ahead == "new" && (c.next.ahead == "(" || c.next.ahead == "<") then
    let newWord ← take .symbol
    let s ← signature self
    return node .phrase (newWord ++ s)
  let sign ← if c.ahead == "-" || c.ahead == "+" then take .symbol else pure []
  let modifiers ← memberModifiers
  if atIndexSignature (← get) then
    let inside ← indexSignature self
    return node .phrase (sign ++ modifiers ++ inside)
  if !sign.isEmpty then failHere
  let title ← propertyName self
  let question ← symbol? "?"
  let c ← get
  if c.ahead == "(" || c.ahead == "<" then
    let s ← signature self
    return node .methodSignature (modifiers ++ withRole .name title ++ question ++ s)
  let type ← typeMark? self
  return node .propertySignature (modifiers ++ withRole .name title ++ question ++ type)

/-- A comma or semicolon between members, or a line end. -/
def memberEnd : Step Forest := do
  let c ← get
  if c.ahead == "," || c.ahead == ";" then take .symbol
  else if c.look.fresh || c.ahead == "\x7d" then takeLineComments
  else failHere

/-- The members of an object type or an interface, with their brackets. -/
def objectType (self : Rules) : Step Forest := lineBound do
  let opening ← symbol "\x7b"
  let items ← repeatWhile do
    let c ← get
    if c.ahead == "\x7d" then return none
    else if c.ahead == "," || c.ahead == ";" then return some (← take .symbol)
    else
      let item ← typeMember self
      let mark ← memberEnd
      return some (item ++ mark)
  let closing ← symbol "\x7d"
  return node .phrase (opening ++ items ++ closing)

/-! ### Types -/

def tupleMember (self : Rules) : Step Forest := do
  let dots ← symbol? "..."
  let c ← get
  let named := c.look.shape == .word &&
    (c.next.ahead == ":" || (c.next.ahead == "?" && c.next.next.ahead == ":"))
  if named then
    let title ← word .identifier
    let question ← symbol? "?"
    let type ← typeMark self
    return node .phrase (dots ++ title ++ question ++ type)
  else
    let type ← self .type
    let question ← symbol? "?"
    return nodeUnless (dots.isEmpty && question.isEmpty) .phrase (dots ++ type ++ question)

def tupleType (self : Rules) : Step Forest := within do
  let opening ← symbol "["
  let items ← commaList (tupleMember self) (closes "]")
  let closing ← symbol "]"
  return node .phrase (opening ++ items ++ closing)

/-- The text of a template up to an embedded part or the closing quote. -/
def spanTemplate (read : List Char) : List Char → List Char
  | '\\' :: c :: cs    => spanTemplate (c :: '\\' :: read) cs
  | '`' :: _           => read.reverse
  | '$' :: '\x7b' :: _ => read.reverse
  | c :: cs            => spanTemplate (c :: read) cs
  | []                 => read.reverse

/-- The inside of a template; `part` reads what is embedded. -/
def templateTail (part : Step Forest) : Nat → Step Forest
  | 0     => failHere
  | n + 1 => do
    let inside ← takeChars .phrase (spanTemplate [] (← get).chars).length
    match (← get).chars with
    | '`' :: _           =>
      let quote ← takeChars .symbol 1
      return inside ++ quote
    | '$' :: '\x7b' :: _ =>
      let opening ← takeChars .symbol 2
      let value ← part
      let closing ← symbol "\x7d"
      let tail ← templateTail part n
      return inside ++ node .phrase (opening ++ value ++ closing) ++ tail
    | _                  => failHere

/-- A template with parts read by `part`. -/
def templateOf (kind : Kind) (part : Step Forest) : Step Forest := within do
  let quote ← take .symbol
  let tail ← templateTail part (← remaining)
  return node kind (quote ++ tail)

/-- The arguments of an import written as a call. -/
def importArguments : Step Forest := within do
  let opening ← symbol "("
  let items ← commaList string (closes ")")
  let closing ← symbol ")"
  return node .arguments (opening ++ items ++ closing)

/-- A module named by a call, with members. -/
def importType (self : Rules) : Step Forest := do
  let importWord ← take .symbol
  let args ← importArguments
  let call := node .call (withRole .function importWord ++ withRole .arguments args)
  let path ← extend (fun tree => do
    if (← ahead) == "." then
      let dot ← take .symbol
      let part ← word .propertyName
      return some (node .member (withRole .object tree ++ dot ++ withRole .property part))
    else return none) call
  let args ← when? (fun c => c.aheadTypeMark == "<") (typeArguments self)
  return nodeUnless args.isEmpty .phrase (path ++ args)

/-- The type of a value, named by a path. -/
def typeQuery (self : Rules) : Step Forest := do
  let typeofWord ← take .symbol
  let subject ←
    if (← ahead) == "import" then importType self
    else do
      let first ← if (← ahead) == "this" then take .this else word .identifier
      extend (fun tree => do
        let c ← get
        if c.ahead == "." || c.ahead == "?." then
          let dot ← take .symbol
          let part ← if (← get).look.shape == .privateWord then take .privateName
            else word .propertyName
          return some (node .member (withRole .object tree ++ dot ++ withRole .property part))
        else return none) first
  let args ← when? (fun c => c.aheadTypeMark == "<") (typeArguments self)
  return node .phrase (typeofWord ++ subject ++ args)

/-- A type's name, with the namespaces before it and the arguments behind it. -/
def namedType (self : Rules) : Step Forest := do
  let c ← get
  let title ←
    if c.next.ahead == "." then do
      let first ← word .identifier
      let path ← extend (fun tree => do
        let c ← get
        if c.ahead == "." && c.next.next.ahead == "." then
          let dot ← take .symbol
          let part ← word .propertyName
          return some (node .member (withRole .object tree ++ dot ++ withRole .property part))
        else return none) first
      let dot ← symbol "."
      let last ← word .typeIdentifier
      pure (node .phrase (path ++ dot ++ last))
    else word .typeIdentifier
  let args ← when? (fun c => c.aheadTypeMark == "<") (typeArguments self)
  return nodeUnless args.isEmpty .phrase (title ++ args)

/-- A type can start here. -/
def atType (c : Cursor) : Bool :=
  match c.look.shape with
  | .word | .string | .number | .backquote => true
  | .mark                                  => ["(", "[", "\x7b", "-"].contains c.look.text
  | _                                      => false

def builtinTypes : List String :=
  ["any", "boolean", "void", "unknown", "never", "object", "symbol", "true", "false", "null",
   "undefined", "this"]

def simpleType (self : Rules) : Step Forest := do
  let c ← get
  match c.look.shape with
  | .string    => take .string
  | .number    => take .number
  | .backquote => templateOf .phrase (self .type)
  | .word      =>
    if c.next.ahead == "." && c.ahead != "import" then namedType self
    else if c.ahead == "number" then node .phrase <$> take .number
    else if c.ahead == "string" then node .phrase <$> take .string
    else if builtinTypes.contains c.ahead then take .phrase
    else if c.ahead == "typeof" then typeQuery self
    else if c.ahead == "import" && c.next.ahead == "(" then importType self
    else namedType self
  | .mark      =>
    if c.ahead == "\x7b" then objectType self
    else if c.ahead == "[" then tupleType self
    else if c.ahead == "-" then
      let sign ← take .symbol
      if (← get).look.shape != .number then failHere
      let value ← take .number
      return node .unary (withRole .operator sign ++ withRole .argument value)
    else if c.ahead == "(" then within do
      let opening ← take .symbol
      let type ← self .type
      let closing ← symbol ")"
      return node .phrase (opening ++ type ++ closing)
    else failHere
  | _          => failHere

/-- A type with arrays and indexed parts of it. -/
def postfixType (self : Rules) : Step Forest := do
  let first ← simpleType self
  extend (fun tree => do
    if (← aheadTypeMark) == "[" then
      let inside ← within do
        let opening ← take .symbol
        let index ← if (← ahead) == "]" then pure [] else self .type
        let closing ← symbol "]"
        pure (opening ++ index ++ closing)
      return some (node .phrase (tree ++ inside))
    else return none) first

/-- Words in front of a type that make another of it. -/
def operatorType (self : Rules) : Step Forest := do
  let marks ← repeatWhile do
    let c ← get
    if ["keyof", "readonly", "unique"].contains c.ahead && atType c.next && !c.next.look.fresh then
      return some (← take .symbol)
    else return none
  let c ← get
  if c.ahead == "infer" && c.next.look.shape == .word then
    let inferWord ← take .symbol
    let title ← word .typeIdentifier
    let limit ←
      if (← ahead) == "extends" then do
        let extendsWord ← take .symbol
        let type ← self .type
        pure (extendsWord ++ type)
      else pure []
    return node .phrase (marks ++ inferWord ++ title ++ limit)
  let type ← postfixType self
  return nodeUnless marks.isEmpty .phrase (marks ++ type)

/-- Types joined by a mark, which may also stand in front of the first. -/
def joinedTypes (mark : String) (next : Step Forest) : Step Forest := do
  let lead ← symbol? mark
  let first ← next
  let whole ← extend (fun left => do
    if (← aheadTypeMark) == mark then
      let sign ← take .symbol
      let right ← next
      return some (node .phrase (left ++ sign ++ right))
    else return none) first
  return nodeUnless lead.isEmpty .phrase (lead ++ whole)

def functionType (self : Rules) : Step Forest := do
  let generics ← typeParameters? self
  let items ← parameters self
  let arrow ← symbol "=>"
  let type ← if atPredicate (← get) then predicate self else self .type
  return node .phrase (generics ++ items ++ arrow ++ type)

/-- A function type, or a union of other types. -/
def plainType (self : Rules) : Step Forest := do
  let c ← get
  if c.ahead == "<" || (c.ahead == "(" && markBehindBrackets c == "=>") then functionType self
  else if c.ahead == "new" || (c.ahead == "abstract" && c.next.ahead == "new") then
    let abstractWord ← symbol? "abstract"
    let newWord ← take .symbol
    let type ← functionType self
    return node .phrase (abstractWord ++ newWord ++ type)
  else joinedTypes "|" (joinedTypes "&" (arm self))
where
  /-- A member of a union. -/
  arm (self : Rules) : Step Forest := do
    let c ← get
    if c.ahead == "(" && markBehindBrackets c == "=>" then functionType self
    else operatorType self

def type (self : Rules) : Step Forest := do
  let left ← plainType self
  if (← aheadTypeMark) == "extends" then
    let extendsWord ← take .symbol
    let limit ← plainType self
    let question ← symbol "?"
    let yes ← self .type
    let colon ← symbol ":"
    let no ← self .type
    return node .phrase (left ++ extendsWord ++ limit ++ question ++ yes ++ colon ++ no)
  else return left

end ArchReview.Script

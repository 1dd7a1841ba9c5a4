import ArchReview.Decimal.Shortest
import ArchReview.Json.Basic

/-!
# JSON texts

`compact` writes a value without blanks, `pretty` with one member or item to a line, indented by
two columns.
-/

namespace ArchReview.Json

def hexDigit (n : Nat) : Char :=
  if n < 10 then Char.ofNat ('0'.toNat + n) else Char.ofNat ('a'.toNat + n - 10)

def escape (c : Char) : List Char :=
  match c with
  | '"'    => ['\\', '"']
  | '\\'   => ['\\', '\\']
  | '\n'   => ['\\', 'n']
  | '\r'   => ['\\', 'r']
  | '\t'   => ['\\', 't']
  | '\x08' => ['\\', 'b']
  | '\x0c' => ['\\', 'f']
  | c      =>
    if c.toNat < 32 then ['\\', 'u', '0', '0', hexDigit (c.toNat / 16), hexDigit (c.toNat % 16)]
    else [c]

def quoted (s : String) : String :=
  String.ofList ('"' :: (s.toList.flatMap escape ++ ['"']))

/-- The text of a value that is neither an array nor an object. -/
def scalarText : Json → String
  | null       => "null"
  | bool b     => if b then "true" else "false"
  | natural n  => toString n
  | negative n => "-" ++ toString n
  | real x     => Decimal.tagged x
  | string s   => quoted s
  | _          => ""

mutual

def compact : Json → String
  | array items    => "[" ++ compactItems items ++ "]"
  | object members => "\x7b" ++ compactMembers members ++ "\x7d"
  | value          => scalarText value

def compactItems : List Json → String
  | []      => ""
  | [v]     => compact v
  | v :: vs => compact v ++ "," ++ compactItems vs

def compactMembers : List (String × Json) → String
  | []           => ""
  | [(k, v)]     => quoted k ++ ":" ++ compact v
  | (k, v) :: ms => quoted k ++ ":" ++ compact v ++ "," ++ compactMembers ms

end

/-- A line break and the indentation of the given depth. -/
def newLine (depth : Nat) : String := "\n" ++ String.ofList (List.replicate (2 * depth) ' ')

mutual

def prettyAt (depth : Nat) : Json → String
  | array []       => "[]"
  | array items    => "[" ++ prettyItems (depth + 1) items ++ newLine depth ++ "]"
  | object []      => "\x7b\x7d"
  | object members =>
    "\x7b" ++ prettyMembers (depth + 1) members ++ newLine depth ++ "\x7d"
  | value          => scalarText value

def prettyItems (depth : Nat) : List Json → String
  | []      => ""
  | [v]     => newLine depth ++ prettyAt depth v
  | v :: vs => newLine depth ++ prettyAt depth v ++ "," ++ prettyItems depth vs

def prettyMembers (depth : Nat) : List (String × Json) → String
  | []           => ""
  | [(k, v)]     => newLine depth ++ quoted k ++ ": " ++ prettyAt depth v
  | (k, v) :: ms =>
    newLine depth ++ quoted k ++ ": " ++ prettyAt depth v ++ "," ++ prettyMembers depth ms

end

def pretty (v : Json) : String := prettyAt 0 v

end ArchReview.Json

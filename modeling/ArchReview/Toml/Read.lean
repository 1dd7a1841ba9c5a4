import ArchReview.Toml.Scalar
import ArchReview.Toml.Table

/-!
# Reading TOML

`Toml.parse?` reads a whole document. A document is a list of lines: headers, which name the table
that the lines after them belong to, and keys with their values.
-/

namespace ArchReview.Toml

/-! ### Between the tokens -/

def isGap (c : Char) : Bool := c == ' ' || c == '\t'

def skipGap (cs : List Char) : List Char := cs.dropWhile isGap

/-- Control characters, of which a text may hold only the tab. -/
def isControl (c : Char) : Bool := (c.toNat < 0x20 && c != '\t') || c.toNat == 0x7f

/-- What follows a line break. -/
def newLine? : List Char → Option (List Char)
  | '\n' :: rest         => some rest
  | '\r' :: '\n' :: rest => some rest
  | _                    => none

/-- Up to the end of a comment, if there is one. -/
def skipComment : List Char → List Char
  | '#' :: rest => rest.dropWhile fun c => !isControl c
  | cs          => cs

/-- What follows the end of a line, on which only a comment may be left. -/
def lineEnd? (cs : List Char) : Option (List Char) :=
  match skipComment (skipGap cs) with
  | [] => some []
  | cs => newLine? cs

/-- Passes over blanks, comments and line breaks. -/
def skipLines : Nat → List Char → List Char
  | 0, cs        => cs
  | fuel + 1, cs =>
    let cs := skipComment (skipGap cs)
    match newLine? cs with
    | some rest => skipLines fuel rest
    | none      => cs

def skipSpace (cs : List Char) : List Char := skipLines cs.length cs

/-! ### Strings -/

/-- The character with a code in hexadecimal digits. -/
def coded? (digits : List Char) : Option Char :=
  if digits.all Text.isHexDigit then
    let n := Text.inBase 16 digits
    if n < 0xD800 || (0xDFFF < n && n < 0x110000) then some (Char.ofNat n) else none
  else none

/-- The character that an escape stands for, after the backslash, and what follows. -/
def escape? : List Char → Option (Char × List Char)
  | 'b' :: rest  => some ('\x08', rest)
  | 't' :: rest  => some ('\t', rest)
  | 'n' :: rest  => some ('\n', rest)
  | 'f' :: rest  => some ('\x0c', rest)
  | 'r' :: rest  => some ('\r', rest)
  | 'e' :: rest  => some ('\x1b', rest)
  | '"' :: rest  => some ('"', rest)
  | '\\' :: rest => some ('\\', rest)
  | 'x' :: rest  => if rest.length < 2 then none else (coded? (rest.take 2)).map (·, rest.drop 2)
  | 'u' :: rest  => if rest.length < 4 then none else (coded? (rest.take 4)).map (·, rest.drop 4)
  | 'U' :: rest  => if rest.length < 8 then none else (coded? (rest.take 8)).map (·, rest.drop 8)
  | _            => none

/-- The rest of a string on one line, after its opening quote. -/
def basicTail : Nat → List Char → List Char → Option (String × List Char)
  | 0, _, _           => none
  | fuel + 1, read, cs =>
    match cs with
    | []           => none
    | '"' :: rest  => some (String.ofList read.reverse, rest)
    | '\\' :: rest => do
      let (c, rest) ← escape? rest
      basicTail fuel (c :: read) rest
    | c :: rest    => if isControl c then none else basicTail fuel (c :: read) rest

/-- The rest of a string without escapes. -/
def literalTail (read : List Char) : List Char → Option (String × List Char)
  | []           => none
  | '\'' :: rest => some (String.ofList read.reverse, rest)
  | c :: rest    => if isControl c then none else literalTail (c :: read) rest

/-- A backslash at the end of a line, with what it joins to the next text. -/
def joined? (cs : List Char) : Option (List Char) :=
  (newLine? (skipGap cs)).map fun rest =>
    rest.dropWhile fun c => isGap c || c == '\n' || c == '\r'

/-- Quotes at the end of a string over several lines: up to two belong to it. -/
def closing? (quote : Char) (cs : List Char) : Option (List Char × List Char) :=
  let run := (cs.takeWhile (· == quote)).length
  if run < 3 then none
  else
    let kept := min (run - 3) 2
    some (List.replicate kept quote, cs.drop (kept + 3))

/-- The rest of a string over several lines; `escapes` says whether a backslash means anything. -/
def multiTail (escapes : Bool) (quote : Char) :
    Nat → List Char → List Char → Option (String × List Char)
  | 0, _, _            => none
  | fuel + 1, read, cs =>
    match closing? quote cs with
    | some (kept, rest) => some (String.ofList (read.reverse ++ kept), rest)
    | none              =>
      match newLine? cs with
      | some rest =>
        multiTail escapes quote fuel ((if cs.head? == some '\r' then ['\n', '\r'] else ['\n']) ++ read)
          rest
      | none      =>
        match cs with
        | []        => none
        | c :: rest =>
          if escapes && c == '\\' then
            match joined? rest with
            | some rest => multiTail escapes quote fuel read rest
            | none      => do
              let (c, rest) ← escape? rest
              multiTail escapes quote fuel (c :: read) rest
          else if isControl c then none
          else multiTail escapes quote fuel (c :: read) rest

/-- A string; a line break right after three quotes does not count. -/
def string? (cs : List Char) : Option (String × List Char) :=
  match cs with
  | '"' :: '"' :: '"' :: rest    =>
    multiTail true '"' (cs.length + 1) [] ((newLine? rest).getD rest)
  | '\'' :: '\'' :: '\'' :: rest =>
    multiTail false '\'' (cs.length + 1) [] ((newLine? rest).getD rest)
  | '"' :: rest                  => basicTail (cs.length + 1) [] rest
  | '\'' :: rest                 => literalTail [] rest
  | _                            => none

/-! ### Keys -/

def isBare (c : Char) : Bool := c.isAlphanum || c == '_' || c == '-'

def keyPart? (cs : List Char) : Option (String × List Char) :=
  match cs with
  | '"' :: rest  => basicTail (cs.length + 1) [] rest
  | '\'' :: rest => literalTail [] rest
  | cs           =>
    let name := cs.takeWhile isBare
    if name.isEmpty then none else some (String.ofList name, cs.dropWhile isBare)

/-- A key with its dots, and what follows without blanks. -/
def key? : Nat → List Char → Option (List String × List Char)
  | 0, _         => none
  | fuel + 1, cs => do
    let (part, cs) ← keyPart? (skipGap cs)
    match skipGap cs with
    | '.' :: rest => do
      let (parts, rest) ← key? fuel rest
      return (part :: parts, rest)
    | rest        => return ([part], rest)

/-! ### Values -/

def isScalarChar (c : Char) : Bool := c.isAlphanum || ['_', '+', '-', '.', ':'].contains c

/-- The text of a scalar. A blank may part a date from its time. -/
def scalarSpan (cs : List Char) : List Char × List Char :=
  let lead := cs.takeWhile isScalarChar
  let rest := cs.dropWhile isScalarChar
  match rest with
  | ' ' :: c :: _ =>
    if c.isDigit && (afterDate? lead).any List.isEmpty then
      let time := rest.tail.takeWhile isScalarChar
      (lead ++ ' ' :: time, rest.tail.dropWhile isScalarChar)
    else (lead, rest)
  | _             => (lead, rest)

mutual
def value? (fuel : Nat) (cs : List Char) : Option (Toml × List Char) :=
  match fuel with
  | 0        => none
  | fuel + 1 =>
    match cs with
    | '"' :: _ | '\'' :: _ => (string? cs).map fun (s, rest) => (.string s, rest)
    | '[' :: rest          => items? fuel [] (skipSpace rest)
    | '\x7b' :: rest       => entries? fuel [] (skipSpace rest)
    | cs                   => do
      let (text, rest) := scalarSpan cs
      let v ← scalar? text
      return (v, rest)

/-- The rest of an array, at an item or at its end. -/
def items? (fuel : Nat) (read : List Toml) (cs : List Char) : Option (Toml × List Char) :=
  match fuel with
  | 0        => none
  | fuel + 1 =>
    match cs with
    | ']' :: rest => some (.array read.reverse, rest)
    | cs          => do
      let (v, rest) ← value? fuel cs
      match skipSpace rest with
      | ',' :: rest => items? fuel (v :: read) (skipSpace rest)
      | ']' :: rest => some (.array (v :: read).reverse, rest)
      | _           => none

/-- The rest of a table in braces, at a key or at its end. -/
def entries? (fuel : Nat) (read : Entries) (cs : List Char) : Option (Toml × List Char) :=
  match fuel with
  | 0        => none
  | fuel + 1 =>
    match cs with
    | '\x7d' :: rest => some (.table (finishEntries read), rest)
    | cs             => do
      let (path, rest) ← key? (cs.length + 1) cs
      let '=' :: rest := rest | none
      let (v, rest) ← value? fuel (skipGap rest)
      let read ← read.addValue v path
      match skipSpace rest with
      | ',' :: rest    => entries? fuel read (skipSpace rest)
      | '\x7d' :: rest => some (.table (finishEntries read), rest)
      | _              => none
end

/-! ### Documents -/

/-- What follows the brackets that close a header. -/
def closeHeader? : Bool → List Char → Option (List Char)
  | false, ']' :: rest       => some rest
  | true, ']' :: ']' :: rest => some rest
  | _, _                     => none

/-- A header and the end of its line; `double` for one of a list of tables. -/
def header? (double : Bool) (cs : List Char) : Option (List String × List Char) := do
  let (path, rest) ← key? (cs.length + 1) cs
  let rest ← closeHeader? double rest
  let rest ← lineEnd? rest
  return (path, rest)

/-- Reads line after line; `header` names the table that is open. -/
def lines? : Nat → List String → Entries → List Char → Option Entries
  | 0, _, _, _               => none
  | fuel + 1, header, es, cs =>
    match skipSpace cs with
    | []                 => some es
    | '[' :: '[' :: rest => do
      let (path, rest) ← header? true rest
      let es ← es.atHeader Entries.beginTable path
      lines? fuel path es rest
    | '[' :: rest        => do
      let (path, rest) ← header? false rest
      let es ← es.atHeader Entries.nameTable path
      lines? fuel path es rest
    | cs                 => do
      let (path, rest) ← key? (cs.length + 1) cs
      let '=' :: rest := rest | none
      let (v, rest) ← value? (2 * rest.length + 2) (skipGap rest)
      let rest ← lineEnd? rest
      let es ← es.under (Entries.addValue v path) header
      lines? fuel header es rest

/-- The entries of a document. A byte order mark may stand in front. -/
def parse? (text : String) : Option (List (String × Toml)) :=
  let cs := match text.toList with
    | '\ufeff' :: rest => rest
    | cs               => cs
  (lines? (cs.length + 1) [] [] cs).map finishEntries

end ArchReview.Toml

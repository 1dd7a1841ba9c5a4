import ArchReview.Text.Basic

/-!
# Wildcards of ignore files

The patterns of ignore files match whole paths: `?` and `*` stay within a segment, `**` between
separators spans segments, brackets give a choice of characters and braces a choice of patterns.
-/

namespace ArchReview.Wildcard

inductive Token where
  | literal (c : Char)
  /-- `?`: one character of a segment. -/
  | any
  /-- `*`: characters of a segment. -/
  | star
  /-- `[a-z]`: one character by ranges. -/
  | choice (negated : Bool) (ranges : List (Char × Char))
  /-- `**/` at the start: nothing, or whole segments. -/
  | anywhere
  /-- `/**` at the end: all that is below. -/
  | below
  /-- `/**/`: at least a separator. -/
  | between
  deriving DecidableEq, Repr, Inhabited

/-! ### Matching -/

/-- What follows each separator. -/
def afterSlashes : List Char → List (List Char)
  | []      => []
  | c :: cs => if c == '/' then cs :: afterSlashes cs else afterSlashes cs

def inRanges (ranges : List (Char × Char)) (c : Char) : Bool :=
  ranges.any fun r => r.1 ≤ c && c ≤ r.2

/-- A whole path fits a pattern. -/
def fits (tokens : List Token) (s : List Char) : Bool :=
  match tokens with
  | []                        => s.isEmpty
  | .literal l :: ts          =>
    match s with
    | []      => false
    | c :: cs => c == l && fits ts cs
  | .any :: ts                =>
    match s with
    | []      => false
    | c :: cs => c != '/' && fits ts cs
  | .choice negated rs :: ts  =>
    match s with
    | []      => false
    | c :: cs => (inRanges rs c != negated) && fits ts cs
  | .star :: ts               =>
    fits ts s || match s with
    | []      => false
    | c :: cs => c != '/' && fits (.star :: ts) cs
  | .anywhere :: ts           => fits ts s || (afterSlashes s).any fun r => fits ts r
  | .between :: ts            =>
    match s with
    | '/' :: cs => fits ts cs || (afterSlashes cs).any fun r => fits ts r
    | _         => false
  | .below :: _               => s.head? == some '/'
termination_by (tokens.length, s.length)

/-- A path fits a pattern; two stars alone fit every path. -/
def accepts (tokens : List Token) (s : List Char) : Bool := tokens == [.anywhere] || fits tokens s

/-! ### Reading patterns -/

/-- The ranges up to the closing bracket. `first` allows a bracket as a plain character. -/
def ranges? : Nat → Bool → List Char → Option (List (Char × Char) × List Char)
  | 0, _, _              => none
  | _ + 1, _, []         => none
  | fuel + 1, first, c :: cs =>
    if c == ']' && !first then some ([], cs)
    else match cs with
      | '-' :: d :: rest =>
        if d == ']' then do
          let (rs, rest) ← ranges? fuel false cs
          return ((c, c) :: rs, rest)
        else if d < c then none
        else do
          let (rs, rest) ← ranges? fuel false rest
          return ((c, d) :: rs, rest)
      | cs               => do
        let (rs, rest) ← ranges? fuel false cs
        return ((c, c) :: rs, rest)

/-- One character by ranges, after the opening bracket. -/
def choice? (cs : List Char) : Option (Token × List Char) :=
  let (negated, cs) := match cs with
    | '!' :: rest | '^' :: rest => (true, rest)
    | cs                        => (false, cs)
  (ranges? (cs.length + 1) true cs).map fun (rs, rest) => (.choice negated rs, rest)

/-- Two stars in a row, by what surrounds them: the tokens before them, last one first, and what
follows. -/
def doubleStar (read : List Token) (cs : List Char) : List Token × List Char :=
  match read, cs with
  | [], []                     => ([.anywhere], [])
  | [], '/' :: rest            => ([.anywhere], rest)
  | .literal '/' :: ts, []     => (.below :: ts, [])
  | .literal '/' :: ts, '/' :: rest => (.between :: ts, rest)
  | .anywhere :: ts, []        => (.anywhere :: ts, [])
  | .anywhere :: ts, '/' :: rest => (.anywhere :: ts, rest)
  | .between :: ts, []         => (.below :: ts, [])
  | .between :: ts, '/' :: rest => (.between :: ts, rest)
  | ts, cs                     => (.star :: .star :: ts, cs)

/-- The tokens of a pattern without braces. -/
def tokens? : Nat → List Token → List Char → Option (List Token)
  | 0, _, _                 => none
  | _ + 1, read, []         => some read.reverse
  | fuel + 1, read, c :: cs =>
    match c, cs with
    | '*', '*' :: rest =>
      let (read, rest) := doubleStar read rest
      tokens? fuel read rest
    | '*', cs          => tokens? fuel (.star :: read) cs
    | '?', cs          => tokens? fuel (.any :: read) cs
    | '[', cs          => do
      let (t, rest) ← choice? cs
      tokens? fuel (t :: read) rest
    | '\\', d :: rest  => tokens? fuel (.literal d :: read) rest
    | '\\', []         => none
    | c, cs            => tokens? fuel (.literal c :: read) cs

/-- Takes braces apart: every choice in its place, the texts before and after shared. It ends at a
comma or closing brace of the level it starts at. -/
def alternatives? : Nat → List Char → List Char → Option (List (List Char) × List Char)
  | 0, _, _                 => none
  | _ + 1, read, []         => some ([read.reverse], [])
  | fuel + 1, read, c :: cs =>
    match c, cs with
    | '\\', d :: rest  => alternatives? fuel (d :: '\\' :: read) rest
    | '\x7b', cs       => do
      let (inner, rest) ← group? fuel cs
      let (after, rest) ← alternatives? fuel [] rest
      return (inner.flatMap fun i => after.map fun a => read.reverse ++ i ++ a, rest)
    | ',', cs          => some ([read.reverse], ',' :: cs)
    | '\x7d', cs       => some ([read.reverse], '\x7d' :: cs)
    | c, cs            => alternatives? fuel (c :: read) cs
where
  group? : Nat → List Char → Option (List (List Char) × List Char)
    | 0, _         => none
    | fuel + 1, cs => do
      let (first, rest) ← alternatives? fuel [] cs
      match rest with
      | ',' :: rest    => do
        let (others, rest) ← group? fuel rest
        return (first ++ others, rest)
      | '\x7d' :: rest => return (first, rest)
      | _              => none

/-- The patterns that a text with braces stands for. A comma outside braces is a comma. -/
def patterns? : Nat → List Char → Option (List (List Char))
  | 0, _         => none
  | fuel + 1, cs => do
    let (first, rest) ← alternatives? (2 * cs.length + 2) [] cs
    match rest with
    | []          => return first
    | ',' :: rest => do
      let others ← patterns? fuel rest
      return first.flatMap fun f => others.map fun o => f ++ ',' :: o
    | _           => none

/-- A pattern, as the ways to fit it. -/
def parse? (pattern : List Char) : Option (List (List Token)) := do
  let texts ← patterns? (pattern.length + 1) pattern
  texts.mapM fun t => tokens? (t.length + 1) [] t

end ArchReview.Wildcard

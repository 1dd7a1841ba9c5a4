import ArchReview.Graph.Basic

/-!
# Long chains of dependencies

From every file the longest chain of imports is followed, never back into a file that is being
followed; the chain of a file is worked out once. Chains above a depth are told from the longest
down, and none that starts inside one already told.
-/

namespace ArchReview

/-- Chains that have been worked out, by their first file. -/
abbrev ChainTable := List (Path × List Path)

def ChainTable.find? (table : ChainTable) (node : Path) : Option (List Path) :=
  (List.find? (fun e => e.1 == node) table).map fun e => e.2

namespace Graph

/-- The longest chain from a file, of those that pass through no file being followed; the first among
equals. -/
def longestFrom (g : Graph) : Nat → List Path → Path → ChainTable → List Path × ChainTable
  | 0, _, node, table          => ([node], table)
  | fuel + 1, following, node, table =>
    match table.find? node with
    | some chain => (chain, table)
    | none       =>
      let following := node :: following
      let (best, table) := (g.successors node).foldl (fun (best, table) next =>
        if following.contains next then (best, table)
        else
          let (chain, table) := g.longestFrom fuel following next table
          (if chain.length > best.length then chain else best, table)) ([], table)
      (node :: best, (node, node :: best) :: table)

/-- The longest chain of every file. -/
def longestChains (g : Graph) : List (List Path) :=
  (g.nodes.foldl (fun (chains, table) node =>
    let (chain, table) := g.longestFrom (g.nodes.length + 1) [] node table
    (chains ++ [chain], table)) (([] : List (List Path)), ([] : ChainTable))).1

/-- Longer chains first, then by their first file. -/
def chainLe (c d : List Path) : Bool :=
  ((compare d.length c.length).then <|
    match c.head?, d.head? with
    | some p, some q => p.compare q
    | _, _           => .eq) != .gt

/-- Drops every chain that starts at a later file of an earlier one. -/
def uncovered (covered : List Path) : List (List Path) → List (List Path)
  | []              => []
  | chain :: chains =>
    match chain with
    | []            => uncovered covered chains
    | first :: rest =>
      if covered.contains first then uncovered covered chains
      else chain :: uncovered (covered ++ rest) chains

/-- How many chains are told at most. -/
def maxChains : Nat := 10

/-- The chains with more than `depth` imports. -/
def deepChains (g : Graph) (depth : Nat) : List (List Path) :=
  let candidates := g.longestChains.filter fun chain => chain.length - 1 > depth
  (uncovered [] (candidates.mergeSort chainLe)).take maxChains

end Graph

end ArchReview

import ArchReview.Graph.Basic

/-!
# Cycles

Cycles are found by a depth-first search over all files. The search keeps the trail of files it is
below, each with the successors it has yet to look at; a successor that lies on the trail closes
a cycle. `Search.step` makes one move, and a graph bounds the number of moves of a whole search.
-/

namespace ArchReview

/-- A file on the trail with the successors still to look at. -/
structure Visit where
  node : Path
  pending : List Path
  deriving DecidableEq, Repr, Inhabited

structure Search where
  visited : List Path
  /-- The last file first. -/
  trail : List Visit
  /-- The cycles met so far, each from its smallest file on. -/
  cycles : List (List Path)
  deriving DecidableEq, Repr, Inhabited

/-! ### Cycles as lists -/

/-- The smallest path of a list. -/
def smallest? : List Path → Option Path
  | []      => none
  | p :: ps => some (ps.foldl (fun m q => if q.compare m == .lt then q else m) p)

/-- A closed round, told from its smallest file on. -/
def rotateToSmallest (round : List Path) : List Path :=
  match smallest? round with
  | none   => round
  | some m => round.dropWhile (· != m) ++ round.takeWhile (· != m)

/-- Two rounds pass through the same files. -/
def sameMembers (c d : List Path) : Bool := c.all d.contains && d.all c.contains

def comparePathLists : List Path → List Path → Ordering
  | [], []           => .eq
  | [], _ :: _       => .lt
  | _ :: _, []       => .gt
  | p :: ps, q :: qs => (p.compare q).then (comparePathLists ps qs)

/-! ### The search -/

namespace Search

/-- The part of the trail from `node` on, first file first. -/
def roundFrom (trail : List Visit) (node : Path) : List Path :=
  match trail with
  | []        => []
  | v :: rest => if v.node == node then [v.node] else roundFrom rest node ++ [v.node]

/-- Records a round, unless one through the same files is known. -/
def record (s : Search) (round : List Path) : Search :=
  if s.cycles.any (sameMembers round) then s
  else { s with cycles := s.cycles ++ [rotateToSmallest round] }

/-- Starts below a file that has not been visited. -/
def enter (g : Graph) (s : Search) (node : Path) : Search :=
  { s with visited := node :: s.visited, trail := ⟨node, g.successors node⟩ :: s.trail }

/-- One move: look at the next successor of the last file, or leave it. -/
def step (g : Graph) (s : Search) : Search :=
  match s.trail with
  | []                        => s
  | ⟨_, []⟩ :: rest           => { s with trail := rest }
  | ⟨node, next :: more⟩ :: rest =>
    let s := { s with trail := ⟨node, more⟩ :: rest }
    if s.trail.any fun v => v.node == next then s.record (roundFrom s.trail next)
    else if s.visited.contains next then s
    else s.enter g next

def steps (g : Graph) : Nat → Search → Search
  | 0, s     => s
  | n + 1, s => if s.trail.isEmpty then s else steps g n (s.step g)

/-- Searches below one more root. -/
def searchFrom (g : Graph) (s : Search) (root : Path) : Search :=
  if s.visited.contains root then s
  else steps g (2 * (g.nodes.length + g.links.length) + 1) (s.enter g root)

end Search

namespace Graph

/-- The cycles met by a search that takes the roots in the given order. -/
def cyclesInOrder (g : Graph) (roots : List Path) : List (List Path) :=
  (roots.foldl (Search.searchFrom g) ⟨[], [], []⟩).cycles.mergeSort fun c d =>
    comparePathLists c d != .gt

def cycles (g : Graph) : List (List Path) := g.cyclesInOrder g.nodes

/-- The cycles met when `root` is visited first. -/
def cyclesFrom (g : Graph) (root : Path) : List (List Path) :=
  match g.nodes.find? fun n => n.same root with
  | none   => g.cycles
  | some r => g.cyclesInOrder (r :: g.nodes.filter (· != r))

end Graph

end ArchReview

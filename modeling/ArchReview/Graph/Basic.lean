import ArchReview.Graph.Resolve

/-!
# Dependency graphs

The nodes of a dependency graph are the files of a project, by their normal paths; its links are
the imports that lead to one of them. Imports that lead nowhere are kept beside. Edges, fan-in and
fan-out are read off the links: two links between the same files are one edge.
-/

namespace ArchReview

/-- What to do with a file that imports itself. -/
inductive SelfLoops where
  | report
  | suppress
  deriving DecidableEq, Repr, Inhabited

namespace SelfLoops

def ofName? (name : String) : Option SelfLoops :=
  match Text.lower name with
  | "report"   => some report
  | "suppress" => some suppress
  | _          => none

def read (name : String) : Except UnknownName SelfLoops :=
  UnknownName.resolve .selfLoopPolicy ofName? name

def title : SelfLoops → String
  | report   => "Report"
  | suppress => "Suppress"

end SelfLoops

/-- An import that leads to a file of the project. -/
structure Link where
  source : Path
  target : Path
  modulePath : String
  line : Nat
  deriving DecidableEq, Repr, Inhabited

/-- An import that leads to none. -/
structure UnresolvedImport where
  source : Path
  modulePath : String
  line : Nat
  reason : UnresolvedReason
  deriving DecidableEq, Repr, Inhabited

structure Graph where
  nodes : List Path
  /-- In the order of the files and of the imports in them. -/
  links : List Link
  unresolved : List UnresolvedImport
  deriving DecidableEq, Repr, Inhabited

/-! ### Building -/

/-- What one import adds to a graph. -/
def Import.trace (r : Resolver) (policy : SelfLoops) (source : Path) (language : Language)
    (i : Import) : List Link × List UnresolvedImport :=
  match r.targets language i with
  | []      => ([], [⟨source, i.modulePath, i.line, i.unresolvedReason language⟩])
  | targets =>
    let kept := targets.filter fun t => !(policy == .suppress && t == source)
    (kept.map fun t => ⟨source, t, i.modulePath, i.line⟩, [])

namespace Graph

/-- The graph of some files. A file that could not be read is a node without links. -/
def ofOutlines (outlines : List Outline) (policy : SelfLoops) : Graph :=
  let nodes := pathSet (outlines.map fun o => o.path.normalize)
  let resolver := Resolver.ofFiles nodes
  let traces := (outlines.filter Outline.succeeded).flatMap fun o =>
    o.imports.map (Import.trace resolver policy o.path.normalize o.language)
  { nodes
    links := traces.flatMap fun t => t.1
    unresolved := traces.flatMap fun t => t.2 }

/-! ### Neighbours -/

/-- The links of a file, in the order of its imports. -/
def linksOf (g : Graph) (path : Path) : List Link := g.links.filter fun l => l.source.same path

/-- The files that a file imports, in order. -/
def successors (g : Graph) (path : Path) : List Path :=
  pathSet ((g.linksOf path).map Link.target)

/-- The files that import a file, in order. -/
def dependents (g : Graph) (path : Path) : List Path :=
  pathSet ((g.links.filter fun l => l.target.same path).map Link.source)

def edges (g : Graph) : List (Path × Path) :=
  g.nodes.flatMap fun p => (g.successors p).map fun q => (p, q)

def edgeCount (g : Graph) : Nat := g.edges.length

/-! ### Coupling -/

def fanIn (g : Graph) (path : Path) : Nat := (g.dependents path).length

def fanOut (g : Graph) (path : Path) : Nat := (g.successors path).length

/-- The number of distinct modules outside the project that a file imports. -/
def externalFanOut (g : Graph) (path : Path) : Nat :=
  (Text.nameSet ((g.unresolved.filter fun u => u.source.same path).map
    UnresolvedImport.modulePath)).length

/-- The share of outgoing dependencies among all. -/
def instability (g : Graph) (path : Path) : Float :=
  let outgoing := g.fanOut path + g.externalFanOut path
  let all := g.fanIn path + outgoing
  if all == 0 then 0.0 else outgoing.toFloat / all.toFloat

end Graph

/-- How one file hangs together with the others. -/
structure ModuleCoupling where
  path : Path
  fanIn : Nat
  fanOut : Nat
  externalFanOut : Nat
  instability : Float
  deriving Repr, Inhabited

def ModuleCoupling.totalFanOut (m : ModuleCoupling) : Nat := m.fanOut + m.externalFanOut

namespace Graph

def coupling (g : Graph) (path : Path) : ModuleCoupling where
  path
  fanIn := g.fanIn path
  fanOut := g.fanOut path
  externalFanOut := g.externalFanOut path
  instability := g.instability path

/-- The coupling of every file, by path. -/
def couplings (g : Graph) : List ModuleCoupling := g.nodes.map g.coupling

end Graph

end ArchReview

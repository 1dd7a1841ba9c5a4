import ArchReview.Decimal.Fixed
import ArchReview.Rule.Project

/-!
# Rules of the dependency graph

Cycles, files that import too much, files that too many import, and long chains.
-/

namespace ArchReview.Coupling

/-- The line of the first import of one file by another. -/
def importLine? (g : Graph) (source target : Path) : Option Nat :=
  ((g.linksOf source).find? fun l => l.target.same target).map Link.line

def arrows (paths : List Path) : String := " -> ".intercalate (paths.map Path.text)

/-- The violation that a cycle is. -/
def cycleViolation? (g : Graph) (cycle : List Path) : Option Violation :=
  cycle.head?.map fun head =>
    let rendered := arrows (cycle ++ [head])
    let line := importLine? g head (cycle.tail.head?.getD head)
    let details := Text.table [("cycle", rendered), ("length", toString cycle.length)]
    if cycle.length == 1 then
      { rule := "COUP-001"
        category := .coupling
        severity := .medium
        title := "Module imports itself"
        description := s!"`{head.text}` imports its own module."
        path := head
        line
        recommendation := "Remove the self-import; refer to local names directly."
        details }
    else
      { rule := "COUP-001"
        category := .coupling
        severity := .high
        title := s!"Circular dependency across {cycle.length} modules"
        description := s!"Import cycle: {rendered}"
        path := head
        line
        recommendation := "Break the cycle by extracting the shared part into a module both can " ++
          "depend on, or invert one dependency behind an interface."
        details }

def cycles (g : Graph) : List Violation := g.cycles.filterMap (cycleViolation? g)

def highFanOut (t : Thresholds) (g : Graph) : List Violation :=
  (g.couplings.filter fun m => m.totalFanOut > t.maxFanOut).map fun m =>
    { rule := "COUP-002"
      category := .coupling
      severity := .medium
      title := s!"High fan-out ({m.totalFanOut} dependencies)"
      description := s!"`{m.path.text}` depends on {m.totalFanOut} modules ({m.fanOut} internal, " ++
        s!"{m.externalFanOut} external); limit {t.maxFanOut}."
      path := m.path
      recommendation :=
        "Split the module or introduce a facade so it depends on fewer collaborators."
      details := Text.table
        [("fan_out", toString m.totalFanOut), ("internal", toString m.fanOut),
         ("external", toString m.externalFanOut),
         ("instability", Decimal.fixed 2 m.instability)] }

def highFanIn (t : Thresholds) (g : Graph) : List Violation :=
  (g.couplings.filter fun m => m.fanIn ≥ t.maxFanIn).map fun m =>
    { rule := "COUP-003"
      category := .coupling
      severity := .low
      title := s!"High fan-in ({m.fanIn} dependents)"
      description :=
        s!"{m.fanIn} modules import `{m.path.text}`; any change here ripples to all of them."
      path := m.path
      recommendation := "Keep the module's interface small and stable, or split it by consumer."
      details := [("fan_in", toString m.fanIn)] }

/-- The violation that a chain of at least two files is. -/
def chainViolation? (g : Graph) : List Path → Option Violation
  | first :: next :: rest =>
    let chain := first :: next :: rest
    let depth := chain.length - 1
    some
      { rule := "COUP-004"
        category := .coupling
        severity := .low
        title := s!"Deep dependency chain ({depth} levels)"
        description := s!"Import chain: {arrows chain}"
        path := first
        line := importLine? g first next
        recommendation := "Introduce an abstraction layer so high-level modules do not reach " ++
          "through many levels."
        details := Text.table [("depth", toString depth), ("chain", arrows chain)] }
  | _                     => none

def deepChains (t : Thresholds) (g : Graph) : List Violation :=
  (g.deepChains t.maxChainDepth).filterMap (chainViolation? g)

/-! ### The analyzer -/

def inGraph (t : Thresholds) (g : Graph) : List Violation :=
  cycles g ++ highFanOut t g ++ highFanIn t g ++ deepChains t g

def analyzer : Analyzer where
  name := "coupling"
  run p := .ok (inGraph p.settings.thresholds p.graph)

end ArchReview.Coupling

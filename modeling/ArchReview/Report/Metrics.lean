import ArchReview.Rule.Project

/-!
# Measures of a project

The overall score loses points for every violation by its weight. Beside it each principle of
class design has a score of its own, by the number of things it could have been broken in, and
the graph is summed up.
-/

namespace ArchReview

/-! ### Scores -/

/-- The weights of the violations, added up in words of 32 bits. -/
def deducted (violations : List Violation) : UInt32 :=
  violations.foldl (fun sum v => sum + UInt32.ofNat v.severity.weight) 0

/-- A hundred points less the weights of the violations, never below zero. -/
def overallScore (violations : List Violation) : Nat := 100 - (deducted violations).toNat

/-- How many things each principle was checked against. -/
structure Coverage where
  classes : Nat := 0
  functions : Nat := 0
  subclassMethods : Nat := 0
  nonDataFiles : Nat := 0
  deriving DecidableEq, Repr, Inhabited

namespace Coverage

def ofOutline (layers : LayerMap) (o : Outline) : Coverage where
  classes := o.classes.length
  functions := o.allFunctions.length
  subclassMethods := ((o.classes.filter fun c => c.isSubclass && !c.isInterface).map
    fun c => c.methods.length).foldr (· + ·) 0
  nonDataFiles := if layers.classify o.path == some .data then 0 else 1

def add (a b : Coverage) : Coverage where
  classes := a.classes + b.classes
  functions := a.functions + b.functions
  subclassMethods := a.subclassMethods + b.subclassMethods
  nonDataFiles := a.nonDataFiles + b.nonDataFiles

def ofProject (p : Project) : Coverage :=
  (p.parsed.map fun f => ofOutline p.settings.layers f.outline).foldl add {}

end Coverage

structure SolidScores where
  srp : Float := 100.0
  ocp : Float := 100.0
  lsp : Float := 100.0
  isp : Float := 100.0
  dip : Float := 100.0
  /-- The mean of the five. -/
  overall : Float := 100.0
  deriving Repr, Inhabited

/-- A hundred less the share of violations, never below zero. -/
def principleScore (violations considered : Nat) : Float :=
  let score := 100.0 - 100.0 * (violations.toFloat / (max considered 1).toFloat)
  if score > 0.0 then score else 0.0

def solidScores (violations : List Violation) (coverage : Coverage) : SolidScores :=
  let count (principle : String) :=
    (violations.filter fun v => v.principle? == some principle).length
  let srp := principleScore (count "SRP") coverage.classes
  let ocp := principleScore (count "OCP") coverage.functions
  let lsp := principleScore (count "LSP") coverage.subclassMethods
  let isp := principleScore (count "ISP") coverage.classes
  let dip := principleScore (count "DIP") coverage.nonDataFiles
  { srp, ocp, lsp, isp, dip, overall := (srp + ocp + lsp + isp + dip) / 5.0 }

/-! ### The graph in numbers -/

structure CouplingMetrics where
  avgFanOut : Float := 0.0
  maxFanOut : Nat := 0
  topCoupledModules : List ModuleCoupling := []
  edgeCount : Nat := 0
  cycleCount : Nat := 0
  deriving Repr, Inhabited

/-- How many modules are listed as most coupled. -/
def topCoupled : Nat := 10

/-- Those with most dependencies in either direction first, then by path. -/
def coupledLe (a b : ModuleCoupling) : Bool :=
  ((compare (b.fanIn + b.totalFanOut) (a.fanIn + a.totalFanOut)).then
    (a.path.compare b.path)) != .gt

def CouplingMetrics.ofGraph (g : Graph) : CouplingMetrics :=
  match g.couplings with
  | []      => {}
  | modules =>
    let fanOuts := modules.map ModuleCoupling.totalFanOut
    { avgFanOut := (fanOuts.foldr (· + ·) 0).toFloat / modules.length.toFloat
      maxFanOut := fanOuts.foldl max 0
      topCoupledModules := (modules.mergeSort coupledLe).take topCoupled
      edgeCount := g.edgeCount
      cycleCount := g.cycles.length }

/-! ### All measures -/

structure Metrics where
  overallScore : Nat := 100
  solidScores : SolidScores := {}
  coupling : CouplingMetrics := {}
  filesAnalyzed : Nat := 0
  filesFailed : Nat := 0
  /-- From the mildest to the worst. -/
  bySeverity : List (Severity × Nat) := []
  byCategory : List (Category × Nat) := []
  deriving Repr, Inhabited

def countBySeverity (violations : List Violation) : List (Severity × Nat) :=
  Severity.all.reverse.map fun s => (s, (violations.filter fun v => v.severity == s).length)

/-- Only the categories that occur. -/
def countByCategory (violations : List Violation) : List (Category × Nat) :=
  (Category.all.map fun c => (c, (violations.filter fun v => v.category == c).length)).filter
    fun e => e.2 > 0

def Metrics.compute (violations : List Violation) (p : Project) : Metrics where
  overallScore := ArchReview.overallScore violations
  solidScores := ArchReview.solidScores violations (Coverage.ofProject p)
  coupling := CouplingMetrics.ofGraph p.graph
  filesAnalyzed := p.files.length
  filesFailed := (p.files.filter fun f => !f.outline.succeeded).length
  bySeverity := countBySeverity violations
  byCategory := countByCategory violations

end ArchReview

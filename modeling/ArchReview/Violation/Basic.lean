import ArchReview.Decimal.Fixed
import ArchReview.Path.Basic
import ArchReview.Text.Case
import ArchReview.Text.Ordered
import ArchReview.Text.Unknown

/-!
# Violations

A violation is one finding of a rule at a place. `Violation.arrange` brings violations into the
order of the report and numbers them.
-/

namespace ArchReview

inductive Category where
  | solid
  | pattern
  | layer
  | coupling
  deriving DecidableEq, Repr, Inhabited

namespace Category

/-- In the order of the report. -/
def all : List Category := [solid, pattern, layer, coupling]

def text : Category → String
  | solid    => "SOLID"
  | pattern  => "Pattern"
  | layer    => "Layer"
  | coupling => "Coupling"

end Category

inductive Severity where
  | low
  | medium
  | high
  | critical
  deriving DecidableEq, Repr, Inhabited

namespace Severity

/-- The worst first. -/
def all : List Severity := [critical, high, medium, low]

def text : Severity → String
  | low      => "LOW"
  | medium   => "MEDIUM"
  | high     => "HIGH"
  | critical => "CRITICAL"

/-- A severity by name, in any case. -/
def ofName? (name : String) : Option Severity :=
  match Text.lower name with
  | "critical"       => some critical
  | "high"           => some high
  | "medium" | "med" => some medium
  | "low"            => some low
  | _                => none

def read (name : String) : Except UnknownName Severity :=
  UnknownName.resolve .severity ofName? name

def rank : Severity → Nat
  | low      => 0
  | medium   => 1
  | high     => 2
  | critical => 3

/-- `s` is at least as bad as `t`. -/
def atLeast (s t : Severity) : Bool := t.rank ≤ s.rank

/-- The points that a violation costs. -/
def weight : Severity → Nat
  | critical => 10
  | high     => 7
  | medium   => 4
  | low      => 1

end Severity

structure Violation where
  /-- Its number in the report, empty until it has one. -/
  id : String := ""
  rule : String
  category : Category
  severity : Severity
  title : String
  description : String := ""
  path : Path
  line : Option Nat := none
  recommendation : String := ""
  /-- Further facts by name, in the order of the names. -/
  details : List (String × String) := []
  deriving DecidableEq, Repr, Inhabited

namespace Violation

/-- The principle that a rule of the first category belongs to: its id up to the dash. -/
def principle? (v : Violation) : Option String :=
  if v.category == .solid then some (Text.before (· == '-') v.rule) else none

/-! ### Order -/

/-- Given lines in order, before an absent one. -/
def compareLines : Option Nat → Option Nat → Ordering
  | some a, some b => Ord.compare a b
  | some _, none   => .lt
  | none, some _   => .gt
  | none, none     => .eq

/-- The worst first; then by file, line, rule, title and description. -/
def compare (v w : Violation) : Ordering :=
  (Ord.compare w.severity.rank v.severity.rank).then <|
  (v.path.compare w.path).then <|
  (compareLines v.line w.line).then <|
  (Text.compareStrings v.rule w.rule).then <|
  (Text.compareStrings v.title w.title).then <|
  Text.compareStrings v.description w.description

def le (v w : Violation) : Bool := v.compare w != .gt

/-- The id of the `n`-th violation: at least four digits. -/
def idText (n : Nat) : String := "V" ++ Decimal.padLeft 4 (toString n)

/-- Numbers violations upwards from `n`. -/
def number (n : Nat) : List Violation → List Violation
  | []      => []
  | v :: vs => { v with id := idText n } :: number (n + 1) vs

/-- Violations in the order of the report, numbered from one. -/
def arrange (violations : List Violation) : List Violation := number 1 (violations.mergeSort le)

end Violation

end ArchReview

import ArchReview.Cache.Basic
import ArchReview.Cache.Document
import ArchReview.Command.Arguments
import ArchReview.Command.Run
import ArchReview.Decimal.Binary
import ArchReview.Decimal.Fixed
import ArchReview.Decimal.Read
import ArchReview.Decimal.Shortest
import ArchReview.Grammar.Python
import ArchReview.Grammar.PythonCursor
import ArchReview.Grammar.PythonExpression
import ArchReview.Grammar.PythonKind
import ArchReview.Grammar.PythonParse
import ArchReview.Grammar.PythonStatement
import ArchReview.Grammar.Script
import ArchReview.Grammar.ScriptCursor
import ArchReview.Grammar.ScriptExpression
import ArchReview.Grammar.ScriptKind
import ArchReview.Grammar.ScriptMarkup
import ArchReview.Grammar.ScriptParse
import ArchReview.Grammar.ScriptStatement
import ArchReview.Grammar.ScriptType
import ArchReview.Grammar.Steps
import ArchReview.Graph.Basic
import ArchReview.Graph.Chains
import ArchReview.Graph.Cycles
import ArchReview.Graph.Resolve
import ArchReview.Json.Basic
import ArchReview.Json.Read
import ArchReview.Json.Record
import ArchReview.Json.Write
import ArchReview.Layer.Basic
import ArchReview.Layer.Glob
import ArchReview.Main
import ArchReview.Outline.Basic
import ArchReview.Outline.Document
import ArchReview.Outline.Facts
import ArchReview.Outline.Python
import ArchReview.Outline.Reader
import ArchReview.Outline.Script
import ArchReview.Path.Basic
import ArchReview.Proofs.Cache.RoundTrip
import ArchReview.Proofs.Cache.SizeLimit
import ArchReview.Proofs.Cache.Transparency
import ArchReview.Proofs.Decimal.Quotient
import ArchReview.Proofs.Grammar.PythonRules
import ArchReview.Proofs.Grammar.PythonTrees
import ArchReview.Proofs.Grammar.ScriptRules
import ArchReview.Proofs.Grammar.ScriptTrees
import ArchReview.Proofs.Grammar.Steps
import ArchReview.Proofs.Graph.Accounting
import ArchReview.Proofs.Graph.Alike
import ArchReview.Proofs.Graph.ChainSoundness
import ArchReview.Proofs.Graph.Components
import ArchReview.Proofs.Graph.CycleCompleteness
import ArchReview.Proofs.Graph.CycleSoundness
import ArchReview.Proofs.Graph.Depth
import ArchReview.Proofs.Graph.Duality
import ArchReview.Proofs.Graph.Edges
import ArchReview.Proofs.Graph.FirstRoot
import ArchReview.Proofs.Graph.Growth
import ArchReview.Proofs.Graph.LongestChains
import ArchReview.Proofs.Graph.ModuleNames
import ArchReview.Proofs.Graph.MutualImports
import ArchReview.Proofs.Graph.RelativeImports
import ArchReview.Proofs.Graph.Round
import ArchReview.Proofs.Graph.Search
import ArchReview.Proofs.Graph.SelfLoops
import ArchReview.Proofs.Graph.Spelling
import ArchReview.Proofs.Graph.Submodules
import ArchReview.Proofs.Graph.WithoutLoops
import ArchReview.Proofs.Json.Text
import ArchReview.Proofs.Layer.Segments
import ArchReview.Proofs.Layer.SingleStar
import ArchReview.Proofs.Outline.Complexity
import ArchReview.Proofs.Outline.Definitions
import ArchReview.Proofs.Outline.Document
import ArchReview.Proofs.Outline.Names
import ArchReview.Proofs.Outline.Reading
import ArchReview.Proofs.Outline.Spans
import ArchReview.Proofs.Path.Canonical
import ArchReview.Proofs.Path.Extension
import ArchReview.Proofs.Path.Join
import ArchReview.Proofs.Path.Normal
import ArchReview.Proofs.Path.Order
import ArchReview.Proofs.Path.Set
import ArchReview.Proofs.Report.Failures
import ArchReview.Proofs.Report.InputOrder
import ArchReview.Proofs.Report.ParseErrors
import ArchReview.Proofs.Report.Printed
import ArchReview.Proofs.Report.Score
import ArchReview.Proofs.Report.Thresholds
import ArchReview.Proofs.Rule.Cohesion
import ArchReview.Proofs.Rule.DatabaseCalls
import ArchReview.Proofs.Rule.ImportLines
import ArchReview.Proofs.Rule.LayerImports
import ArchReview.Proofs.Rule.LayerSpelling
import ArchReview.Proofs.Rule.MagicNumbers
import ArchReview.Proofs.Rule.Placement
import ArchReview.Proofs.Rule.Thresholds
import ArchReview.Proofs.Rule.UnusedImports
import ArchReview.Proofs.Settings.LayerNames
import ArchReview.Proofs.Sorting
import ArchReview.Proofs.Text.NameSet
import ArchReview.Proofs.Toml.Keys
import ArchReview.Proofs.Tree.Lines
import ArchReview.Proofs.Tree.Places
import ArchReview.Proofs.Tree.Subtrees
import ArchReview.Proofs.Tree.Walk
import ArchReview.Proofs.Violation.Arrangement
import ArchReview.Proofs.Violation.Order
import ArchReview.Report.Basic
import ArchReview.Report.Document
import ArchReview.Report.Framework
import ArchReview.Report.Markdown
import ArchReview.Report.Metrics
import ArchReview.Rule.Coupling
import ArchReview.Rule.Design
import ArchReview.Rule.Drift
import ArchReview.Rule.Layering
import ArchReview.Rule.Marker
import ArchReview.Rule.Project
import ArchReview.Rule.Recognition
import ArchReview.Rule.Solid
import ArchReview.Settings.Basic
import ArchReview.Settings.Document
import ArchReview.Source.Basic
import ArchReview.Source.Digest
import ArchReview.Text.AlphanumericTable
import ArchReview.Text.Basic
import ArchReview.Text.Case
import ArchReview.Text.CaseTable
import ArchReview.Text.Class
import ArchReview.Text.Hex
import ArchReview.Text.IdentifierTable
import ArchReview.Text.Ordered
import ArchReview.Text.Search
import ArchReview.Text.Similar
import ArchReview.Text.Unknown
import ArchReview.Text.WordTable
import ArchReview.Toml.Basic
import ArchReview.Toml.Read
import ArchReview.Toml.Scalar
import ArchReview.Toml.Table
import ArchReview.Tree.Basic
import ArchReview.Violation.Basic
import ArchReview.Violation.Pattern
import ArchReview.Workspace.Access
import ArchReview.Workspace.Discover
import ArchReview.Workspace.Ignore
import ArchReview.Workspace.Memory
import ArchReview.Workspace.Review
import ArchReview.Workspace.Wildcard

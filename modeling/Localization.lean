import Localization.Command.Extract
import Localization.Command.Places
import Localization.Command.Run
import Localization.Command.Wrap
import Localization.CommandLine.Command
import Localization.CommandLine.Option
import Localization.Component.Basic
import Localization.Component.Classifier
import Localization.Component.Hook
import Localization.Component.Import
import Localization.Component.Literal
import Localization.Component.Wrap
import Localization.Config.Basic
import Localization.Config.Stored
import Localization.Decimal.Binary64
import Localization.Decimal.Shortest
import Localization.Dictionary
import Localization.Edit.Basic
import Localization.Extraction
import Localization.Failure
import Localization.Json.Error
import Localization.Json.Reader
import Localization.Json.Record
import Localization.Json.Skip
import Localization.Json.Value
import Localization.Key.Generator
import Localization.Key.Occurrence
import Localization.Key.Set
import Localization.Main
import Localization.OrderedMap
import Localization.Output.Basic
import Localization.Output.Sheet
import Localization.Pattern.Glob
import Localization.Pattern.Selection
import Localization.Proofs.Command.RefusedExtraction
import Localization.Proofs.Command.RefusedRun
import Localization.Proofs.Component.Alike
import Localization.Proofs.Component.Candidate
import Localization.Proofs.Component.Emitted
import Localization.Proofs.Component.HookImport
import Localization.Proofs.Component.Idempotence
import Localization.Proofs.Component.Placed
import Localization.Proofs.Component.Redeclared
import Localization.Proofs.Component.Spliced
import Localization.Proofs.Component.Wrap
import Localization.Proofs.Component.WrappedCandidate
import Localization.Proofs.Component.WrappedTree
import Localization.Proofs.Edit.Apart
import Localization.Proofs.Edit.Piece
import Localization.Proofs.Edit.Splice
import Localization.Proofs.Key.Generated
import Localization.Proofs.Key.Unique
import Localization.Proofs.Source.Extent
import Localization.Proofs.Source.ModuleScope
import Localization.Proofs.Source.Way
import Localization.Proofs.Text.Boundary
import Localization.Proofs.Text.Order
import Localization.Regex.Basic
import Localization.Regex.CharSet
import Localization.Regex.Error
import Localization.Regex.Meaning
import Localization.Regex.Parser
import Localization.Regex.Size
import Localization.Regex.Syntax
import Localization.Report.Basic
import Localization.Settings
import Localization.Source.Binding
import Localization.Source.Entity
import Localization.Source.Grammar.Expression
import Localization.Source.Grammar.Function
import Localization.Source.Grammar.Jsx
import Localization.Source.Grammar.Module
import Localization.Source.Grammar.Parser
import Localization.Source.Grammar.Pattern
import Localization.Source.Grammar.Statement
import Localization.Source.Grammar.Type
import Localization.Source.Location
import Localization.Source.Node
import Localization.Source.Scan
import Localization.Source.Scope
import Localization.Source.Token
import Localization.Text.Blank
import Localization.Text.Bytes
import Localization.Text.CaseFold
import Localization.Text.CharRange
import Localization.Text.Identifier
import Localization.Text.Line
import Localization.Text.Order
import Localization.Text.Property
import Localization.Text.Quoted
import Localization.Text.Width
import Localization.Text.WidthRange
import Localization.Tree.Basic
import Localization.Tree.Path
import Localization.Tree.Workspace
import Localization.Proofs.Output.Sheet
import Localization.Proofs.Source.Grammar.Parser
import Localization.Proofs.Source.Grammar.Type
import Localization.Proofs.Source.Grammar.Function
import Localization.Proofs.Source.Grammar.Jsx
import Localization.Proofs.Source.Grammar.Expression
import Localization.Proofs.Source.Grammar.Statement
import Localization.Proofs.Source.Grammar.Module
import Localization.Proofs.Component.SameScope
import Localization.Proofs.Component.Captured
import Localization.Proofs.Component.Complete
import Localization.Proofs.Key.Call
import Localization.Proofs.Component.KeptKeys
import Localization.Proofs.Json.Written
import Localization.Proofs.Json.Brackets
import Localization.Proofs.OrderedMap
import Localization.Proofs.Json.Range
import Localization.Proofs.Json.RoundTrip
import Localization.Proofs.Dictionary.Merge
import Localization.Proofs.Tree.Growth
import Localization.Proofs.Tree.Resolution
import Localization.Proofs.Tree.Saved
import Localization.Proofs.Command.Repeated
import Localization.Proofs.Pattern.Literal
import Localization.Proofs.Pattern.Selection
import Localization.Proofs.Json.Opening
import Localization.Proofs.Source.Grammar.Opening
import Localization.Proofs.Source.Opening
import Localization.Proofs.Source.Reach
import Localization.Proofs.Component.Directive
import Localization.Proofs.Component.InScope
import Localization.Proofs.Key.Reordered
import Localization.Proofs.Command.DryRun
import Localization.Proofs.Command.KeyFile
import Localization.Proofs.Command.Unparsed
import Localization.Proofs.Decimal.Nearest
import Localization.Proofs.Decimal.Shortest
import Localization.Proofs.Json.Float
import Localization.Proofs.Json.WrittenFloat
import Localization.Proofs.Output.Agreement
import Localization.Proofs.Dictionary.Union
import Localization.Proofs.Pattern.Expansion
import Localization.Proofs.Component.KeptBlanks
import Localization.Proofs.Component.Spared
import Localization.Proofs.Component.Visit
import Localization.Proofs.Component.ImportAgain
import Localization.Proofs.Key.Spelled
import Localization.Proofs.Source.Address
import Localization.Proofs.Key.Found
import Localization.Proofs.Key.Ordered
import Localization.Proofs.Component.LineEnds
import Localization.Proofs.Key.CamelCase
import Localization.Proofs.Command.SharedKeyFile
import Localization.Proofs.Config.RoundTrip
import Localization.Proofs.Component.Reported
import Localization.Proofs.Regex.Matching
import Localization.Proofs.Component.Classifier
import Localization.Proofs.Config.Nearest
import Localization.Proofs.Pattern.Skipped
import Localization.Proofs.Config.Languages
import Localization.Proofs.Command.MergedKeys
import Localization.Proofs.Source.Bound.Module

import DesignTokens.Cluster.Basic
import DesignTokens.Cluster.Flatten
import DesignTokens.Command.Arguments
import DesignTokens.Command.Run
import DesignTokens.Diagnostic
import DesignTokens.Document
import DesignTokens.Fault
import DesignTokens.Fix.Apply
import DesignTokens.Fix.Basic
import DesignTokens.Fix.Collect
import DesignTokens.Fix.Listing
import DesignTokens.Fix.Selection
import DesignTokens.Folder.Basic
import DesignTokens.Folder.FilePath
import DesignTokens.Folder.Problem
import DesignTokens.Inference
import DesignTokens.Json.Basic
import DesignTokens.Json.Display
import DesignTokens.Json.Equal
import DesignTokens.Json.Reader
import DesignTokens.Json.Writer
import DesignTokens.Log
import DesignTokens.Log.Registry
import DesignTokens.Main
import DesignTokens.Markup
import DesignTokens.Node
import DesignTokens.Normal.Colour
import DesignTokens.Normal.Dimension
import DesignTokens.Normal.Document
import DesignTokens.Number.Binary64
import DesignTokens.Number.Numeral
import DesignTokens.Number.Shortest
import DesignTokens.Path
import DesignTokens.Plan
import DesignTokens.Report
import DesignTokens.Review
import DesignTokens.Rule.Colour
import DesignTokens.Rule.Composite
import DesignTokens.Rule.Dimension
import DesignTokens.Rule.Scalar
import DesignTokens.Settings
import DesignTokens.Spelling.Alias
import DesignTokens.Spelling.Colour
import DesignTokens.Spelling.Quantity
import DesignTokens.Text.Blank
import DesignTokens.Text.Case
import DesignTokens.Text.CodeRanges
import DesignTokens.Text.DecimalDigit
import DesignTokens.Text.Halves
import DesignTokens.Text.Infix
import DesignTokens.Text.Lines
import DesignTokens.Text.Quoted
import DesignTokens.Text.Unprintable
import DesignTokens.Text.Utf8
import DesignTokens.TokenType
import DesignTokens.Transcript
import DesignTokens.Validation
import DesignTokens.Proofs.Cluster.Flat
import DesignTokens.Proofs.Cluster.Leaves
import DesignTokens.Proofs.Cluster.Types
import DesignTokens.Proofs.Fix.Agreement
import DesignTokens.Proofs.Fix.Alone
import DesignTokens.Proofs.Fix.Apply
import DesignTokens.Proofs.Fix.Batch
import DesignTokens.Proofs.Fix.Collect
import DesignTokens.Proofs.Fix.Fits
import DesignTokens.Proofs.Fix.Order
import DesignTokens.Proofs.Fix.Overlaps
import DesignTokens.Proofs.Fix.Rounds
import DesignTokens.Proofs.Fix.Run
import DesignTokens.Proofs.Fix.Stale
import DesignTokens.Proofs.Fix.Types
import DesignTokens.Proofs.Fix.Typings
import DesignTokens.Proofs.Fix.Validity
import DesignTokens.Proofs.Fix.Warnings
import DesignTokens.Proofs.Fix.Work
import DesignTokens.Proofs.Frame
import DesignTokens.Proofs.Json.Equal
import DesignTokens.Proofs.Json.Keyed
import DesignTokens.Proofs.Json.Members
import DesignTokens.Proofs.Json.Reordered
import DesignTokens.Proofs.Json.Substitution
import DesignTokens.Proofs.Node
import DesignTokens.Proofs.Normal.Basic
import DesignTokens.Proofs.Normal.Chains
import DesignTokens.Proofs.Normal.Clean
import DesignTokens.Proofs.Normal.Colour
import DesignTokens.Proofs.Normal.Faults
import DesignTokens.Proofs.Normal.FixedPoint
import DesignTokens.Proofs.Normal.Keyed
import DesignTokens.Proofs.Normal.NormalForm
import DesignTokens.Proofs.Normal.Reordered
import DesignTokens.Proofs.Normal.Tokens
import DesignTokens.Proofs.Normal.Typed
import DesignTokens.Proofs.Normal.Types
import DesignTokens.Proofs.Plan
import DesignTokens.Proofs.Review
import DesignTokens.Proofs.Review.Session
import DesignTokens.Proofs.Review.Walk
import DesignTokens.Proofs.Rule.Kinds
import DesignTokens.Proofs.Rule.Reordered
import DesignTokens.Proofs.Rule.Suggested
import DesignTokens.Proofs.Spelling
import DesignTokens.Proofs.Text.Blank
import DesignTokens.Proofs.Validation.Clean
import DesignTokens.Proofs.Validation.Conformance
import DesignTokens.Proofs.Validation.Findings
import DesignTokens.Proofs.Validation.Flat
import DesignTokens.Proofs.Validation.Refusal
import DesignTokens.Proofs.Validation.Reordered
import DesignTokens.Proofs.Validation.Types
import DesignTokens.Proofs.Validation.Visits
import DesignTokens.Proofs.Document
import DesignTokens.Proofs.Fix.Siblings
import DesignTokens.Proofs.Rule.Dimension
import DesignTokens.Proofs.Normal.Dimension
import DesignTokens.Proofs.Normal.Gamut
import DesignTokens.Proofs.Number.Doubles
import DesignTokens.Proofs.Number.Rounding
import DesignTokens.Proofs.Rule.References
import DesignTokens.Proofs.Cluster.Names
import DesignTokens.Proofs.Log.Requests
import DesignTokens.Proofs.Normal.Calls
import DesignTokens.Proofs.Rule.Shadow
import DesignTokens.Proofs.Inference
import DesignTokens.Proofs.Path
import DesignTokens.Proofs.Fix.Target
import DesignTokens.Proofs.Json.Halves

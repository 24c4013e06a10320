import DocMatch.Binary64.Basic
import DocMatch.Binary64.Decimal
import DocMatch.Binary64.Shortest
import DocMatch.Bytes
import DocMatch.CommandLine.Arguments
import DocMatch.CommandLine.Command
import DocMatch.CommandLine.Directory
import DocMatch.CommandLine.Disk
import DocMatch.Compare
import DocMatch.Correlation.Arrays
import DocMatch.Correlation.Key
import DocMatch.Correlation.Multiset
import DocMatch.Diagnostic.Basic
import DocMatch.Diagnostic.Json
import DocMatch.Document
import DocMatch.Error
import DocMatch.Event.Basic
import DocMatch.Event.Capture
import DocMatch.Event.Directive
import DocMatch.Event.Filter
import DocMatch.Event.Line
import DocMatch.Expression.Callee
import DocMatch.Expression.NumberTest
import DocMatch.Expression.Parse
import DocMatch.Expression.StringTest
import DocMatch.Fields
import DocMatch.Json.Fault
import DocMatch.Json.Literal
import DocMatch.Json.Misfit
import DocMatch.Json.Number
import DocMatch.Json.Reader
import DocMatch.Json.Skip
import DocMatch.Main
import DocMatch.MatchId
import DocMatch.Matcher.Basic
import DocMatch.Matcher.Session
import DocMatch.Node
import DocMatch.Proofs.Binary64
import DocMatch.Proofs.Binary64.Nearest
import DocMatch.Proofs.Binary64.Order
import DocMatch.Proofs.Binary64.Rounding
import DocMatch.Proofs.Binary64.Within
import DocMatch.Proofs.CommandLine.Arguments
import DocMatch.Proofs.CommandLine.Command
import DocMatch.Proofs.CommandLine.Directory
import DocMatch.Proofs.Compare.Calls
import DocMatch.Proofs.Compare.Emptiness
import DocMatch.Proofs.Compare.Events
import DocMatch.Proofs.Compare.Failure
import DocMatch.Proofs.Compare.Formatting
import DocMatch.Proofs.Compare.Identities
import DocMatch.Proofs.Compare.Level
import DocMatch.Proofs.Compare.Location
import DocMatch.Proofs.Compare.Numbers
import DocMatch.Proofs.Compare.Paths
import DocMatch.Proofs.Compare.Positions
import DocMatch.Proofs.Compare.Prefix
import DocMatch.Proofs.Compare.Scalars
import DocMatch.Proofs.Compare.Self
import DocMatch.Proofs.Compare.Step
import DocMatch.Proofs.Compare.Subset
import DocMatch.Proofs.Compare.Termination
import DocMatch.Proofs.Compare.Tolerance
import DocMatch.Proofs.Compare.Weaker
import DocMatch.Proofs.Correlation
import DocMatch.Proofs.Correlation.Keys
import DocMatch.Proofs.Correlation.Multiset
import DocMatch.Proofs.Correlation.Permutation
import DocMatch.Proofs.Correlation.Restriction
import DocMatch.Proofs.Decimal
import DocMatch.Proofs.Digits
import DocMatch.Proofs.Document
import DocMatch.Proofs.Document.Numbers
import DocMatch.Proofs.Document.Parts
import DocMatch.Proofs.Document.Removal
import DocMatch.Proofs.Expression.Grammar
import DocMatch.Proofs.Expression.Number
import DocMatch.Proofs.Expression.Parse
import DocMatch.Proofs.Expression.Timestamps
import DocMatch.Proofs.Fields
import DocMatch.Proofs.Fields.Order
import DocMatch.Proofs.Formatting
import DocMatch.Proofs.Formatting.Keys
import DocMatch.Proofs.Json.Decoding
import DocMatch.Proofs.Json.Follows
import DocMatch.Proofs.Json.Layout
import DocMatch.Proofs.Json.Literal
import DocMatch.Proofs.Json.Number
import DocMatch.Proofs.Json.Reading
import DocMatch.Proofs.Json.Skip
import DocMatch.Proofs.Json.Surrogates
import DocMatch.Proofs.Json.Value
import DocMatch.Proofs.Matcher.History
import DocMatch.Proofs.Matcher.Log
import DocMatch.Proofs.Matcher.Redaction
import DocMatch.Proofs.Raises
import DocMatch.Proofs.Sequence
import DocMatch.Proofs.Substitution
import DocMatch.Proofs.Substitution.Log
import DocMatch.Proofs.Substitution.Occurrence
import DocMatch.Proofs.Timestamp
import DocMatch.Proofs.Timestamp.Duration
import DocMatch.Proofs.Timestamp.Reading
import DocMatch.Proofs.Utf8
import DocMatch.Report
import DocMatch.Sensitive
import DocMatch.Substitution
import DocMatch.Text.Alphanumeric
import DocMatch.Text.Blank
import DocMatch.Text.Bounds
import DocMatch.Text.Digits
import DocMatch.Text.Pattern
import DocMatch.Text.Quoted
import DocMatch.Text.Terminal
import DocMatch.Text.Unprintable
import DocMatch.Timestamp
import DocMatch.Utf8
import DocMatch.Verdict

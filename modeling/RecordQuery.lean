import RecordQuery.Text.Blank
import RecordQuery.Text.Pieces
import RecordQuery.Text.Printable
import RecordQuery.Number.Integer
import RecordQuery.Number.Binary64
import RecordQuery.Number.Decimal
import RecordQuery.Calendar.Date
import RecordQuery.Calendar.DateTime
import RecordQuery.Uuid
import RecordQuery.Error
import RecordQuery.Schema.Ty
import RecordQuery.Schema.Basic
import RecordQuery.Json.Basic
import RecordQuery.Json.Raw
import RecordQuery.Json.Reader
import RecordQuery.Json.Printer
import RecordQuery.Schema.Document
import RecordQuery.Shape.Basic
import RecordQuery.Shape.Cache
import RecordQuery.Value.Basic
import RecordQuery.Value.FromText
import RecordQuery.Value.Json
import RecordQuery.Text.Quoted
import RecordQuery.Expr.Basic
import RecordQuery.Expr.Build
import RecordQuery.Expr.Eval
import RecordQuery.Expr.Rebind
import RecordQuery.Expr.Path
import RecordQuery.Lambda
import RecordQuery.Options.Basic
import RecordQuery.Filter.Descriptor
import RecordQuery.Filter.Grammar
import RecordQuery.Filter.Compile
import RecordQuery.Mapping
import RecordQuery.Projection
import RecordQuery.Query
import RecordQuery.Text.Hex
import RecordQuery.Toml.Basic
import RecordQuery.Toml.Scalar
import RecordQuery.Toml.Reader
import RecordQuery.Options.Document
import RecordQuery.CommandLine.Arguments
import RecordQuery.CommandLine.Files
import RecordQuery.CommandLine.Run
import RecordQuery.Main
import RecordQuery.Proofs.Outcome
import RecordQuery.Proofs.Lookup
import RecordQuery.Proofs.Text.Split
import RecordQuery.Proofs.Value.Conformance
import RecordQuery.Proofs.Expr.Evaluation
import RecordQuery.Proofs.Expr.Structure
import RecordQuery.Proofs.Expr.Typing
import RecordQuery.Proofs.Expr.Soundness
import RecordQuery.Proofs.Expr.Reading
import RecordQuery.Proofs.Expr.Rebinding
import RecordQuery.Proofs.Shape.Signature
import RecordQuery.Proofs.Shape.History
import RecordQuery.Proofs.Shape.Identity
import RecordQuery.Proofs.Projection.Meaning
import RecordQuery.Proofs.Filter.Predicate
import RecordQuery.Proofs.Filter.Conjunction
import RecordQuery.Proofs.Value.Loading
import RecordQuery.Proofs.Filter.Progress
import RecordQuery.Proofs.Shape.Counting
import RecordQuery.Proofs.Projection.Failure
import RecordQuery.Proofs.Expr.Alike
import RecordQuery.Proofs.Filter.RootParameter
import RecordQuery.Proofs.Filter.Segments
import RecordQuery.Proofs.Filter.Agreement
import RecordQuery.Proofs.Query.Stages
import RecordQuery.Proofs.Query.Chaining
import RecordQuery.Proofs.Expr.Paths
import RecordQuery.Proofs.Projection.Narrowness
import RecordQuery.Proofs.Number.Digits
import RecordQuery.Proofs.Calendar.Reading
import RecordQuery.Proofs.Value.Writing
import RecordQuery.Proofs.Value.Reloading
import RecordQuery.Proofs.CommandLine.Completion
import RecordQuery.Proofs.Expr.Substitution
import RecordQuery.Proofs.Filter.Positions
import RecordQuery.Proofs.Text.Occurrence
import RecordQuery.Proofs.Filter.Wildcards
import RecordQuery.Proofs.Filter.Membership
import RecordQuery.Proofs.Filter.Emptiness
import RecordQuery.Proofs.Value.Reading
import RecordQuery.Proofs.Filter.Settlement
import RecordQuery.Proofs.Filter.Refusal
import RecordQuery.Proofs.Calendar.Order
import RecordQuery.Proofs.Filter.Comparison
import RecordQuery.Proofs.Filter.TextMatch
import RecordQuery.Proofs.Expr.Resolution
import RecordQuery.Proofs.Schema.Declarations
import RecordQuery.Proofs.Filter.Closure
import RecordQuery.Proofs.Schema.TypeNames
import RecordQuery.Proofs.Optional
import RecordQuery.Proofs.Schema.Reordering
import RecordQuery.Proofs.Json.Writing
import RecordQuery.Proofs.Filter.Documents
import RecordQuery.Proofs.Projection.RootParameter
import RecordQuery.Proofs.Number.Rounding
import RecordQuery.Proofs.Value.Transitivity
import RecordQuery.Proofs.Value.Blanks
import RecordQuery.Proofs.Value.Rereading
import RecordQuery.Proofs.Calendar.Utc
import RecordQuery.Proofs.Value.Aborting
import RecordQuery.Proofs.Filter.Aborting
import RecordQuery.Proofs.CommandLine.Aborting

import RecordQuery.Binder
import RecordQuery.Builder
import RecordQuery.CommandLine.Arguments
import RecordQuery.CommandLine.Run
import RecordQuery.Decimal.Binary64
import RecordQuery.Decimal.Literal
import RecordQuery.Decimal.Shortest
import RecordQuery.Dictionary
import RecordQuery.DisplayName
import RecordQuery.Failure
import RecordQuery.Json.Basic
import RecordQuery.Json.Document
import RecordQuery.Json.Printer
import RecordQuery.Json.Shape
import RecordQuery.Limits.Basic
import RecordQuery.Limits.Source
import RecordQuery.Limits.Toml.Basic
import RecordQuery.Limits.Toml.Document
import RecordQuery.Limits.Toml.Scalar
import RecordQuery.Limits.Toml.Text
import RecordQuery.Main
import RecordQuery.Operator
import RecordQuery.Projection
import RecordQuery.Query
import RecordQuery.Record
import RecordQuery.RecordId
import RecordQuery.Request.Basic
import RecordQuery.Request.Decode
import RecordQuery.Schema.Basic
import RecordQuery.Schema.ClassModel
import RecordQuery.Schema.Document
import RecordQuery.Schema.PropertyType
import RecordQuery.Selection.Basic
import RecordQuery.Selection.Check
import RecordQuery.Selection.OfRequest
import RecordQuery.Selection.Render
import RecordQuery.Selection.Traversal
import RecordQuery.Statement
import RecordQuery.Store.Count
import RecordQuery.Store.Match
import RecordQuery.Store.Search
import RecordQuery.Store.Select
import RecordQuery.Store.Session
import RecordQuery.Store.User
import RecordQuery.Terminal.Report
import RecordQuery.Terminal.Style
import RecordQuery.Text.Blank
import RecordQuery.Text.Numeral
import RecordQuery.Text.Quoted
import RecordQuery.Text.Split
import RecordQuery.Text.Unseen
import RecordQuery.Value
import RecordQuery.Visibility
import RecordQuery.Proofs.Induction
import RecordQuery.Proofs.Lowering
import RecordQuery.Proofs.Draft
import RecordQuery.Proofs.Names
import RecordQuery.Proofs.Scanning
import RecordQuery.Proofs.Wrapping
import RecordQuery.Proofs.Placeholders
import RecordQuery.Proofs.Erasure
import RecordQuery.Proofs.Reading
import RecordQuery.Proofs.Nesting
import RecordQuery.Proofs.Meaning
import RecordQuery.Proofs.Trimming
import RecordQuery.Proofs.Composition
import RecordQuery.Proofs.Inheritance
import RecordQuery.Proofs.Trails
import RecordQuery.Proofs.Registration
import RecordQuery.Proofs.Ancestry
import RecordQuery.Proofs.Flattening
import RecordQuery.Proofs.Levels
import RecordQuery.Proofs.Criteria
import RecordQuery.Proofs.Activity
import RecordQuery.Proofs.Admission
import RecordQuery.Proofs.Vocabulary
import RecordQuery.Proofs.Contract
import RecordQuery.Proofs.Rejections
import RecordQuery.Proofs.Bounds
import RecordQuery.Proofs.Ids
import RecordQuery.Proofs.Sentences
import RecordQuery.Proofs.Renumbering
import RecordQuery.Proofs.Exchange
import RecordQuery.Proofs.Counting
import RecordQuery.Proofs.Encoding
import RecordQuery.Proofs.RoundTrip
import RecordQuery.Proofs.Display
import RecordQuery.Proofs.Building
import RecordQuery.Proofs.Acceptance
import RecordQuery.Proofs.Matching
import RecordQuery.Proofs.PathTrees
import RecordQuery.Proofs.PathFields
import RecordQuery.Proofs.Projections
import RecordQuery.Proofs.Simplification
import RecordQuery.Proofs.Roots
import RecordQuery.Proofs.Framing
import RecordQuery.Proofs.Searching
import RecordQuery.Proofs.Nearness
import RecordQuery.Proofs.Spellings
import RecordQuery.Proofs.Terminals
import RecordQuery.Proofs.VariantNames
import RecordQuery.Proofs.Envelopes
import RecordQuery.Proofs.Retrimming
import RecordQuery.Proofs.Granting
import RecordQuery.Proofs.Targets
import RecordQuery.Proofs.Ranges

import FieldRemap.Allocation
import FieldRemap.Assignment.Proposal
import FieldRemap.Assignment.Similarity
import FieldRemap.Command.Arguments
import FieldRemap.Command.Host
import FieldRemap.Command.Memory
import FieldRemap.Command.Options
import FieldRemap.Command.Run
import FieldRemap.Command.Session
import FieldRemap.Convention
import FieldRemap.Dataset
import FieldRemap.Digest.Sha256
import FieldRemap.Edit
import FieldRemap.Export
import FieldRemap.Fingerprint
import FieldRemap.Job.Basic
import FieldRemap.Job.Exchange
import FieldRemap.Job.Identity
import FieldRemap.Job.Transport
import FieldRemap.Json.Canonical
import FieldRemap.Json.Document
import FieldRemap.Json.Draft
import FieldRemap.Json.Numeral
import FieldRemap.Json.Record
import FieldRemap.Json.Spelling
import FieldRemap.Json.Tagged
import FieldRemap.Json.Value
import FieldRemap.Log.Directive
import FieldRemap.Log.Filter
import FieldRemap.Log.Layout
import FieldRemap.Log.Level
import FieldRemap.Log.Progress
import FieldRemap.Log.Record
import FieldRemap.Main
import FieldRemap.Number.Binary
import FieldRemap.Number.Decimal
import FieldRemap.Number.Single
import FieldRemap.Pattern.Basic
import FieldRemap.Pattern.CharSet
import FieldRemap.Pattern.Syntax
import FieldRemap.Placeholder
import FieldRemap.Proofs.Agreement
import FieldRemap.Proofs.Allocation
import FieldRemap.Proofs.Answering
import FieldRemap.Proofs.Arbitration
import FieldRemap.Proofs.Assigning
import FieldRemap.Proofs.Bisect
import FieldRemap.Proofs.Comments
import FieldRemap.Proofs.Construction
import FieldRemap.Proofs.Context
import FieldRemap.Proofs.Continuity
import FieldRemap.Proofs.Decoding
import FieldRemap.Proofs.Derivation
import FieldRemap.Proofs.Document
import FieldRemap.Proofs.Exchange
import FieldRemap.Proofs.Extent
import FieldRemap.Proofs.FieldOrder
import FieldRemap.Proofs.Filling
import FieldRemap.Proofs.Fingerprint
import FieldRemap.Proofs.Grammar
import FieldRemap.Proofs.Idempotence
import FieldRemap.Proofs.Identifier
import FieldRemap.Proofs.Intake
import FieldRemap.Proofs.Layout
import FieldRemap.Proofs.Legibility
import FieldRemap.Proofs.Lists
import FieldRemap.Proofs.Literal
import FieldRemap.Proofs.Lookup
import FieldRemap.Proofs.Mention
import FieldRemap.Proofs.Message
import FieldRemap.Proofs.Moves
import FieldRemap.Proofs.Numbering
import FieldRemap.Proofs.Overlap
import FieldRemap.Proofs.Parts
import FieldRemap.Proofs.Places
import FieldRemap.Proofs.Printing
import FieldRemap.Proofs.Proposal
import FieldRemap.Proofs.Queries
import FieldRemap.Proofs.QuoteMap
import FieldRemap.Proofs.Reading
import FieldRemap.Proofs.Recovery
import FieldRemap.Proofs.Registry
import FieldRemap.Proofs.Remapping
import FieldRemap.Proofs.Retarget
import FieldRemap.Proofs.Rewriting
import FieldRemap.Proofs.RoundTrip
import FieldRemap.Proofs.Search
import FieldRemap.Proofs.Settlement
import FieldRemap.Proofs.Shift
import FieldRemap.Proofs.Skim
import FieldRemap.Proofs.Slicing
import FieldRemap.Proofs.Span
import FieldRemap.Proofs.Spelling
import FieldRemap.Proofs.Strings
import FieldRemap.Proofs.Substitution
import FieldRemap.Proofs.Suffix
import FieldRemap.Proofs.Token
import FieldRemap.Proofs.TokenText
import FieldRemap.Proofs.Tokenization
import FieldRemap.Proofs.Tracking
import FieldRemap.Proofs.View
import FieldRemap.Proofs.Weave
import FieldRemap.Proofs.Whole
import FieldRemap.Proofs.Wire
import FieldRemap.Proofs.Workflow
import FieldRemap.QuoteMap
import FieldRemap.Reference.Form
import FieldRemap.Reference.Search
import FieldRemap.Registry
import FieldRemap.Remap
import FieldRemap.Report.Overview
import FieldRemap.Report.Redaction
import FieldRemap.Report.Table
import FieldRemap.Settings
import FieldRemap.Template
import FieldRemap.Text.Cluster
import FieldRemap.Text.Emoji
import FieldRemap.Text.Escape
import FieldRemap.Text.Letter
import FieldRemap.Text.Lowercase
import FieldRemap.Text.Number
import FieldRemap.Text.Quoted
import FieldRemap.Text.Span
import FieldRemap.Text.Style
import FieldRemap.Text.Terminal
import FieldRemap.Text.Utf8
import FieldRemap.Text.Width
import FieldRemap.Text.Word
import FieldRemap.Tokenize
import FieldRemap.Toml.Document
import FieldRemap.Toml.Scalar
import FieldRemap.Toml.Value
import FieldRemap.Track
import FieldRemap.Usage
import FieldRemap.Wire.Convention
import FieldRemap.Wire.Dataset
import FieldRemap.Wire.Job
import FieldRemap.Wire.Registry
import FieldRemap.Wire.Request
import FieldRemap.Wire.Suggestion
import FieldRemap.Wire.Template
import FieldRemap.Wire.Workflow
import FieldRemap.Workflow.Run
import FieldRemap.Workflow.State

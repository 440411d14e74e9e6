import Stencil.Text.Basic
import Stencil.Decimal.Basic
import Stencil.Binary64.Basic
import Stencil.Binary64.Reading
import Stencil.Code.Basic
import Stencil.Code.Supply
import Stencil.Config.Names
import Stencil.Config.Basic
import Stencil.Decimal.Shortest
import Stencil.Decimal.Layout
import Stencil.Document.SyntaxError
import Stencil.Text.CharRanges
import Stencil.Text.GraphemeExtend
import Stencil.Text.Unprintable
import Stencil.Text.Quoted
import Stencil.Diagnostic.Error
import Stencil.Text.WidthClass
import Stencil.Text.Ligature
import Stencil.Text.EmojiSequence
import Stencil.Text.Width
import Stencil.Diagnostic.Highlight
import Stencil.Diagnostic.Failure
import Stencil.Document.Node
import Stencil.Text.CharClass
import Stencil.Document.Reader
import Stencil.Document.Token
import Stencil.Json.Escape
import Stencil.Json.Number
import Stencil.Text.Table
import Stencil.Json.Value
import Stencil.Json.Fault
import Stencil.Json.Cursor
import Stencil.Json.Literal
import Stencil.Json.Numeral
import Stencil.Json.Reader
import Stencil.Stored.Field
import Stencil.Stored.Reader
import Stencil.Template.Occurrence
import Stencil.Template.Segment
import Stencil.Template.Numbered
import Stencil.Template.RawToken
import Stencil.Template.Basic
import Stencil.Template.Log
import Stencil.Stored.Template
import Stencil.Values.Renderings
import Stencil.Template.Expansion
import Stencil.Template.Reading
import Stencil.Values.Datum
import Stencil.Values.Basic
import Stencil.Workbench.Command
import Stencil.Workbench.Basic
import Stencil.Text.Bytes
import Stencil.Config.Arrangement
import Stencil.Code.Allocator
import Stencil.Document.ByteReader
import Stencil.Template.Span
import Stencil.Template.ByteScan
import Stencil.Template.RawWalk
import Stencil.Proofs.Code.Digits
import Stencil.Proofs.Template.CodePlaces
import Stencil.Proofs.Document.Completeness
import Stencil.Proofs.Document.Beginnings
import Stencil.Proofs.Document.Soundness
import Stencil.Proofs.Document.FirstFault
import Stencil.Proofs.Document.Numerals
import Stencil.Proofs.Document.Separation
import Stencil.Proofs.Template.Compilation
import Stencil.Proofs.Template.Classification
import Stencil.Proofs.Json.Escape
import Stencil.Proofs.Template.Cells
import Stencil.Proofs.Template.Splicing
import Stencil.Proofs.Template.Structure
import Stencil.Proofs.Template.Lockstep
import Stencil.Proofs.Template.SourcePlaces
import Stencil.Proofs.Template.Rebasing
import Stencil.Proofs.Text.Bytes
import Stencil.Proofs.Template.ByteScan
import Stencil.Proofs.Template.Leftmost
import Stencil.Proofs.Document.Nesting
import Stencil.Proofs.Document.Strict
import Stencil.Proofs.Diagnostic.Lines
import Stencil.Proofs.Template.ErrorPlaces
import Stencil.Proofs.Template.Acceptance
import Stencil.Proofs.Json.StringLiterals
import Stencil.Proofs.Template.StringValues
import Stencil.Proofs.Code.Allocation
import Stencil.Proofs.Code.Drawing
import Stencil.Proofs.Code.Order
import Stencil.Proofs.Template.Exchange
import Stencil.Proofs.Values.Leaves
import Stencil.Proofs.Template.Replacement
import Stencil.Proofs.Template.SyntaxErrors
import Stencil.Proofs.Document.Escapes
import Stencil.Proofs.Template.Escapes
import Stencil.Proofs.Config.Names
import Stencil.Proofs.Stored.Reading
import Stencil.Proofs.Stored.RoundTrip
import Stencil.Proofs.Config.Canonical
import Stencil.Proofs.Template.RawOrder
import Stencil.Proofs.Decimal.Shortest
import Stencil.Proofs.Json.Numbers
import Stencil.Proofs.Values.JsonText
import Stencil.Proofs.Template.Surplus
import Stencil.Proofs.Document.ByteReading
import Stencil.Proofs.Workbench.Runs
import Stencil.Proofs.Template.LeftmostPlaces

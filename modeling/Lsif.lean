import Lsif.Browser.Basic
import Lsif.Browser.Command
import Lsif.CommandLine.Invocation
import Lsif.CommandLine.Options
import Lsif.CommandLine.Run
import Lsif.CommandLine.Scan
import Lsif.CommandLine.Values
import Lsif.Document.Basic
import Lsif.Document.Lookup
import Lsif.Document.Search
import Lsif.Element.Basic
import Lsif.Element.Decode
import Lsif.Element.Encode
import Lsif.Element.Field
import Lsif.Fault
import Lsif.Graph.Basic
import Lsif.Graph.Build
import Lsif.Graph.Encode
import Lsif.Graph.Index
import Lsif.Graph.Neighbors
import Lsif.Graph.Selection
import Lsif.Graph.Statistics
import Lsif.Indentation
import Lsif.Json.Basic
import Lsif.Json.Double
import Lsif.Json.Draft
import Lsif.Json.Numeral
import Lsif.Json.Printer
import Lsif.Json.Readable
import Lsif.Json.Reader
import Lsif.Json.Scan
import Lsif.Json.Sorted
import Lsif.Json.Token
import Lsif.Main
import Lsif.Number.Binary
import Lsif.Number.Decimal
import Lsif.Pass
import Lsif.Proofs.Browser.Search
import Lsif.Proofs.Document
import Lsif.Proofs.Document.Lookup
import Lsif.Proofs.Document.Search
import Lsif.Proofs.Element.RoundTrip
import Lsif.Proofs.Graph.Answers
import Lsif.Proofs.Graph.Build
import Lsif.Proofs.Graph.Faults
import Lsif.Proofs.Graph.Index
import Lsif.Proofs.Graph.Neighbors
import Lsif.Proofs.Graph.Reload
import Lsif.Proofs.Graph.Tables
import Lsif.Proofs.Indentation
import Lsif.Proofs.Json.Numeral
import Lsif.Proofs.Json.Printer
import Lsif.Proofs.Json.Reader
import Lsif.Proofs.Json.Scan
import Lsif.Proofs.Layout
import Lsif.Proofs.Lines
import Lsif.Proofs.Pass
import Lsif.Proofs.Text
import Lsif.Report
import Lsif.Text.Blank
import Lsif.Text.Integer
import Lsif.Text.Invisible
import Lsif.Text.Lines
import Lsif.Text.Occurrence
import Lsif.Text.Quoted
import Lsif.Proofs.Graph.Options
import Lsif.Proofs.Browser.State
import Lsif.Proofs.Json.Grammar
import Lsif.Proofs.Json.Draft
import Lsif.Proofs.Json.Readable
import Lsif.Proofs.Element.Exact
import Lsif.Proofs.Json.Sound
import Lsif.Proofs.Element.Shape
import Lsif.Proofs.Graph.Addresses
import Lsif.Proofs.Indentation.Nesting
import Lsif.Proofs.Graph.Statistics
import Lsif.Proofs.Graph.Rearrangement
import Lsif.Proofs.Graph.Continuation
import Lsif.Proofs.Element.Marker
import Lsif.Proofs.Graph.Display
import Lsif.Proofs.Document.Terminator
import Lsif.Proofs.Browser.Terminator
import Lsif.Proofs.Document.Occurrences
import Lsif.Proofs.Indentation.Balance
import Lsif.Proofs.Indentation.Rejection
import Lsif.Proofs.Graph.Depths
import Lsif.Proofs.Lines.Joined
import Lsif.Proofs.CommandLine.Neighbors
import Lsif.Proofs.Json.Overflow

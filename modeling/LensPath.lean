import LensPath.Text.Basic
import LensPath.Text.Quoted
import LensPath.Token.Scanner
import LensPath.Path.Walk
import LensPath.Path.Reading
import LensPath.TypeModel.Table
import LensPath.Highlight
import LensPath.Inspection
import LensPath.Decimal.Shortest
import LensPath.Json.Scan
import LensPath.Json.Skip
import LensPath.Json.Reader
import LensPath.Json.Value
import LensPath.Json.Shape.Stream
import LensPath.Manifest
import LensPath.Log.Journal
import LensPath.Resolution.Summary
import LensPath.Token.Listing
import LensPath.Report
import LensPath.Main
import LensPath.Proofs.Grammar
import LensPath.Proofs.Grammar.Stage
import LensPath.Proofs.Reading.Joining
import LensPath.Proofs.Inspection.Place
import LensPath.Proofs.Token.Tiling
import LensPath.Proofs.TypeModel.Hiding
import LensPath.Proofs.TypeModel.Known
import LensPath.Proofs.Reading.Extension
import LensPath.Proofs.Resolution.Concatenation
import LensPath.Proofs.TypeModel.Insertion
import LensPath.Proofs.Resolution.Homomorphism
import LensPath.Proofs.Highlight
import LensPath.Proofs.TypeModel.Renaming
import LensPath.Proofs.TypeModel.Extension
import LensPath.Proofs.Inspection.Canonical
import LensPath.Proofs.TypeModel.Visible
import LensPath.Proofs.Inspection.Writing
import LensPath.Proofs.Inspection.Each
import LensPath.Proofs.Manifest.Groups
import LensPath.Proofs.Manifest.Verdict
import LensPath.Proofs.Json.Run
import LensPath.Proofs.Json.Spelling
import LensPath.Proofs.Json.Numbers
import LensPath.Proofs.Json.Strings
import LensPath.Proofs.Json.Value
import LensPath.Proofs.Json.Written
import LensPath.Proofs.Json.Skip
import LensPath.Proofs.Json.Meaning
import LensPath.Proofs.Json.Kept
import LensPath.Proofs.Json.Stream
import LensPath.Proofs.Json.Valid
import LensPath.Proofs.Json.Loosened
import LensPath.Proofs.TypeModel.Encoding
import LensPath.Proofs.Manifest.RoundTrip
import LensPath.Proofs.Manifest.Assembled
import LensPath.Proofs.Manifest.Agreement
import LensPath.Proofs.Highlight.Tokens
import LensPath.Proofs.Highlight.Shifted
import LensPath.Proofs.Inspection.Translation
import LensPath.Proofs.Inspection.Collecting
import LensPath.Proofs.Manifest.Partition
import LensPath.Proofs.Resolution.Summary
import LensPath.Proofs.Inspection.Offence
import LensPath.Proofs.Report
import LensPath.Proofs.Message
import LensPath.Proofs.Path.Delivery
import LensPath.Proofs.Resolution.Positions
import LensPath.Proofs.Token.Joining
import LensPath.Proofs.Token.Scanner
import LensPath.Proofs.Inspection.Blank
import LensPath.Proofs.TypeModel.History
import LensPath.Proofs.Span
import LensPath.Proofs.Reading.Cursor
import LensPath.Proofs.Reading.Unfailing
import LensPath.Proofs.TypeModel.Presentable

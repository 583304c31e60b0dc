import Uncaught.Check.Verdict
import Uncaught.Command.Arguments
import Uncaught.Command.Run
import Uncaught.Decimal.Shortest
import Uncaught.Files.Collect
import Uncaught.Files.Disk
import Uncaught.Files.Path
import Uncaught.Files.Walk
import Uncaught.Fingerprint.Basic
import Uncaught.Fingerprint.Xxh64
import Uncaught.Fix.Offer
import Uncaught.Fix.Codec
import Uncaught.Fix.Edits
import Uncaught.Glob.Basic
import Uncaught.Glob.Expression
import Uncaught.Glob.Reader
import Uncaught.Ignore.Level
import Uncaught.Ignore.Rule
import Uncaught.Json.Decoder
import Uncaught.Json.Document
import Uncaught.Json.Error
import Uncaught.Json.Numeral
import Uncaught.Json.Quotation
import Uncaught.Json.Record
import Uncaught.Json.Value
import Uncaught.Json.Variant
import Uncaught.Main
import Uncaught.Settings
import Uncaught.Report.Analysis
import Uncaught.Report.Codec
import Uncaught.Report.Format
import Uncaught.Report.Issue
import Uncaught.Report.Suppression
import Uncaught.Report.Violation
import Uncaught.Text.Characters
import Uncaught.Text.Position
import Uncaught.Tree.Ancestors
import Uncaught.Tree.Basic
import Uncaught.Tree.Builder
import Uncaught.Tree.Codec
import Uncaught.Tree.Error
import Uncaught.Tree.Validation
import Uncaught.Proofs.Tree.Lineage
import Uncaught.Proofs.Tree.Validity
import Uncaught.Proofs.Check.Walks
import Uncaught.Proofs.Check.Conditions
import Uncaught.Proofs.Check.Locality
import Uncaught.Proofs.Tree.Graft
import Uncaught.Proofs.Check.Repair
import Uncaught.Proofs.Check.Transparency
import Uncaught.Proofs.Check.Undecided
import Uncaught.Proofs.Json.Scalar
import Uncaught.Proofs.Json.Spelling
import Uncaught.Proofs.Json.Recovery
import Uncaught.Proofs.Json.Records
import Uncaught.Proofs.Tree.RoundTrip
import Uncaught.Proofs.Fix.RoundTrip
import Uncaught.Proofs.Report.PerCall
import Uncaught.Proofs.Report.RoundTrip
import Uncaught.Proofs.Report.Counters
import Uncaught.Proofs.Report.Offers
import Uncaught.Proofs.Check.Enlargement
import Uncaught.Proofs.Tree.Reordering
import Uncaught.Proofs.Report.Reordering
import Uncaught.Proofs.Report.Relabelling
import Uncaught.Proofs.Command.Isolation
import Uncaught.Proofs.Fix.Nesting
import Uncaught.Proofs.Check.Search
import Uncaught.Proofs.Files.Order
import Uncaught.Proofs.Files.Union
import Uncaught.Proofs.Files.Places
import Uncaught.Proofs.Files.Duplicates
import Uncaught.Proofs.Report.FirstRequest
import Uncaught.Proofs.Check.Closures
import Uncaught.Proofs.Fix.Insertion
import Uncaught.Proofs.Fix.Order
import Uncaught.Proofs.Fix.SharedRange
import Uncaught.Proofs.Fix.Wrappers
import Uncaught.Proofs.Fingerprint.Digits
import Uncaught.Proofs.Fingerprint.Collisions
import Uncaught.Proofs.Text.LineStarts
import Uncaught.Proofs.Text.Positions
import Uncaught.Proofs.Tree.Building
import Uncaught.Proofs.Tree.SyntheticRanges
import Uncaught.Proofs.Tree.Ascents

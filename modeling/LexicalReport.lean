import LexicalReport.Main
import LexicalReport.Report.Decoding
import LexicalReport.Settings.Verbosity
import LexicalReport.Proofs.Scan.Cursor
import LexicalReport.Proofs.Scan.Segment
import LexicalReport.Proofs.Scan.Step
import LexicalReport.Proofs.Scan.Walk
import LexicalReport.Proofs.Scan.Tiling
import LexicalReport.Proofs.Scan.Places
import LexicalReport.Proofs.Scan.Lookahead
import LexicalReport.Proofs.Scan.Lead
import LexicalReport.Proofs.Scan.Blanking
import LexicalReport.Proofs.Scan.Lines
import LexicalReport.Proofs.Scan.Separation
import LexicalReport.Proofs.Scan.CarriageReturns
import LexicalReport.Proofs.Settings.SingleLayer
import LexicalReport.Proofs.Json.Scalars
import LexicalReport.Proofs.Json.RoundTrip
import LexicalReport.Proofs.Report.Document
import LexicalReport.Proofs.Settings.Precedence
import LexicalReport.Proofs.Files.Standing
import LexicalReport.Proofs.Files.Growth
import LexicalReport.Proofs.Files.Repetition
import LexicalReport.Proofs.Text.Numerals
import LexicalReport.Proofs.Log.Naming
import LexicalReport.Proofs.Log.Writing
import LexicalReport.Proofs.Run.Flags
import LexicalReport.Proofs.Text.Printable
import LexicalReport.Proofs.Report.Stripping
import LexicalReport.Proofs.Report.Agreement
import LexicalReport.Proofs.Scan.LineSpans
import LexicalReport.Proofs.Log.LineCount
import LexicalReport.Proofs.Text.Languages
import LexicalReport.Proofs.Scan.Numbers
import LexicalReport.Proofs.Scan.Delimiters
import LexicalReport.Proofs.Scan.MaximalMunch
import LexicalReport.Proofs.Text.ByteOrder
import LexicalReport.Proofs.Files.Joining
import LexicalReport.Proofs.Ignore.Listing
import LexicalReport.Proofs.Source.Collection
import LexicalReport.Proofs.Log.User
import LexicalReport.Proofs.Run.RecordedUser
import LexicalReport.Proofs.Settings.PaddedValues
import LexicalReport.Proofs.Log.NameLength
import LexicalReport.Proofs.Report.MemberOrder
import LexicalReport.Proofs.Scan.Kinds
import LexicalReport.Proofs.CommandLine.Scores
import LexicalReport.Proofs.CommandLine.Accepted
import LexicalReport.Proofs.CommandLine.RoundTrip
import LexicalReport.Proofs.Grade.Average
import LexicalReport.Proofs.Scan.Endings
import LexicalReport.Proofs.Token.DisplayLine

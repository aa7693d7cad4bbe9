import LineLexer.Text.Line
import LineLexer.Text.CharClass
import LineLexer.Token.Keyword
import LineLexer.Token.Kind
import LineLexer.Token.Basic
import LineLexer.Vocabulary
import LineLexer.Diagnostic
import LineLexer.Failure
import LineLexer.Options
import LineLexer.Cursor
import LineLexer.Lexeme
import LineLexer.Event
import LineLexer.Classifier
import LineLexer.LineScan
import LineLexer.Report.Basic
import LineLexer.Scanner
import LineLexer.Scan
import LineLexer.Batch
import LineLexer.Report.Table
import LineLexer.Text.Unprintable
import LineLexer.Text.Escaped
import LineLexer.Decimal.Shortest
import LineLexer.Json.Fault
import LineLexer.Json.Space
import LineLexer.Json.Quoted
import LineLexer.Json.Number
import LineLexer.Json.Skip
import LineLexer.Json.Reader
import LineLexer.Json.Record
import LineLexer.Json.Value
import LineLexer.Json.Document
import LineLexer.Options.Json
import LineLexer.Report.Json
import LineLexer.Files
import LineLexer.Command.Arguments
import LineLexer.Command.Run
import LineLexer.Main
import LineLexer.Proofs.Lexeme.Class
import LineLexer.Proofs.Lexeme.Munch
import LineLexer.Proofs.LineScan.Walk
import LineLexer.Proofs.Scan.Loop
import LineLexer.Proofs.LineScan.Derivation
import LineLexer.Proofs.LineScan.Tiling
import LineLexer.Proofs.Scan.Visit
import LineLexer.Proofs.Text.Breaks
import LineLexer.Proofs.Scan.Layout
import LineLexer.Proofs.Lexeme.Language
import LineLexer.Proofs.Scan.Acceptance
import LineLexer.Proofs.Scan.FailFast
import LineLexer.Proofs.Lexeme.Gluing
import LineLexer.Proofs.LineScan.Determinism
import LineLexer.Proofs.Text.Chunks
import LineLexer.Proofs.LineScan.Shift
import LineLexer.Proofs.Scan.Chunks
import LineLexer.Proofs.Scan.Isolation
import LineLexer.Proofs.Scan.Row
import LineLexer.Proofs.Scan.NormalForm
import LineLexer.Proofs.Text.Decomposition
import LineLexer.Proofs.Scan.Log
import LineLexer.Proofs.Command.Accepted
import LineLexer.Proofs.Command.Flags
import LineLexer.Proofs.Command.Preparation
import LineLexer.Proofs.Command.Sources
import LineLexer.Proofs.Command.Truncation
import LineLexer.Proofs.Command.ExitStatus
import LineLexer.Proofs.Scan.Vocabularies
import LineLexer.Proofs.Scan.Silence
import LineLexer.Proofs.Json.Literal
import LineLexer.Proofs.Json.Numeral
import LineLexer.Proofs.Json.Borders
import LineLexer.Proofs.Json.Skip
import LineLexer.Proofs.Json.Readers
import LineLexer.Proofs.Json.Records
import LineLexer.Proofs.Json.Spelling
import LineLexer.Proofs.Json.Members
import LineLexer.Proofs.Options.Configuration
import LineLexer.Proofs.Report.RoundTrip
import LineLexer.Proofs.Sequence.FirstFailure
import LineLexer.Proofs.Command.Obstacles
import LineLexer.Proofs.Text.LetterCase
import LineLexer.Proofs.Lexeme.LetterCase
import LineLexer.Proofs.Scan.LetterCase
import LineLexer.Proofs.Json.Conveyed
import LineLexer.Proofs.Report.Compatibility
import LineLexer.Proofs.Batch.Course
import LineLexer.Proofs.Batch.Refinement
import LineLexer.Proofs.Scan.Images
import LineLexer.Proofs.Scan.Exactness
import LineLexer.Proofs.Scan.Accounting
import LineLexer.Proofs.Text.Delimited
import LineLexer.Proofs.Scan.Unbroken
import LineLexer.Proofs.Report.Messages
import LineLexer.Proofs.Report.Dumps
import LineLexer.Proofs.Vocabulary.Words
import LineLexer.Proofs.Classifier.Progress
import LineLexer.Proofs.Cursor.Suffix

import CustomProperties.Main
import CustomProperties.Scan.Cache
import CustomProperties.Proofs.Numeral
import CustomProperties.Proofs.Text
import CustomProperties.Proofs.Candidate
import CustomProperties.Proofs.Walk
import CustomProperties.Proofs.Span
import CustomProperties.Proofs.StableSort
import CustomProperties.Proofs.Patch
import CustomProperties.Proofs.Rescan
import CustomProperties.Proofs.Stylesheet
import CustomProperties.Proofs.Completeness
import CustomProperties.Proofs.Visit
import CustomProperties.Proofs.Lexer
import CustomProperties.Proofs.Concatenation
import CustomProperties.Proofs.Truncation
import CustomProperties.Proofs.Repetition
import CustomProperties.Proofs.Entries
import CustomProperties.Proofs.Session
import CustomProperties.Proofs.Cache
import CustomProperties.Proofs.JsonScalar
import CustomProperties.Proofs.JsonReader
import CustomProperties.Proofs.JsonLimits
import CustomProperties.Proofs.JsonValue
import CustomProperties.Proofs.Record
import CustomProperties.Proofs.EditRequest
import CustomProperties.Proofs.EditCommand
import CustomProperties.Proofs.Idempotence
import CustomProperties.Proofs.Noninterference
import CustomProperties.Proofs.Selector
import CustomProperties.Proofs.ValueEnd
import CustomProperties.Proofs.Quoted
import CustomProperties.Proofs.ScanLog
import CustomProperties.Proofs.ChangeLog
import CustomProperties.Proofs.Location
import CustomProperties.Proofs.Ansi
import CustomProperties.Proofs.Padding
import CustomProperties.Proofs.Assignment
import CustomProperties.Proofs.EditDocument
import CustomProperties.Proofs.Matching
import CustomProperties.Proofs.Invocation
import CustomProperties.Proofs.ListCommand
import CustomProperties.Proofs.Registers
import CustomProperties.Proofs.Frame
import CustomProperties.Proofs.OutputFile

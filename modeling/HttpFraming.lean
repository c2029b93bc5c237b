import HttpFraming.Text.Utf8
import HttpFraming.Text.CharClass
import HttpFraming.Text.Decimal
import HttpFraming.Text.Hexadecimal
import HttpFraming.Text.CaseFold
import HttpFraming.Text.Cut
import HttpFraming.FieldValue.Token
import HttpFraming.FieldValue.Sequence
import HttpFraming.FieldValue.TokenList
import HttpFraming.FieldValue.ExtensionList
import HttpFraming.Message.Version
import HttpFraming.Message.Method
import HttpFraming.Message.Status
import HttpFraming.Message.Headers
import HttpFraming.Message.Head
import HttpFraming.Message.Framing
import HttpFraming.Message.ResponseBuilder
import HttpFraming.Url.Percent
import HttpFraming.Url.Basic
import HttpFraming.Url.Normalize
import HttpFraming.Url.Query
import HttpFraming.Wire.Error
import HttpFraming.Wire.Limits
import HttpFraming.Wire.Lexer
import HttpFraming.Wire.FieldCollector
import HttpFraming.Wire.HeadParser
import HttpFraming.Wire.ChunkedDecoder
import HttpFraming.Stream.Source
import HttpFraming.Stream.ReadAhead
import HttpFraming.Stream.Error
import HttpFraming.Stream.Options
import HttpFraming.Stream.HeadReader
import HttpFraming.Stream.BoundBody
import HttpFraming.Stream.UntilEofBody
import HttpFraming.Stream.ChunkedBody
import HttpFraming.Stream.BodyReader
import HttpFraming.Stream.Loops
import HttpFraming.Stream.WindowReader
import HttpFraming.Config.Json
import HttpFraming.Config.Load
import HttpFraming.Proofs.Lexer.Step
import HttpFraming.Proofs.Lexer.Pieces
import HttpFraming.Proofs.Fragmentation.Head
import HttpFraming.Proofs.Fragmentation.Body
import HttpFraming.Proofs.Grammar.Chunk
import HttpFraming.Proofs.Grammar.Chunked
import HttpFraming.Proofs.Grammar.Head
import HttpFraming.Proofs.Grammar.Request
import HttpFraming.Proofs.Grammar.Response
import HttpFraming.Proofs.Grammar.Unambiguous
import HttpFraming.Proofs.Grammar.Limits
import HttpFraming.Proofs.Stream.Head
import HttpFraming.Proofs.RoundTrip.Parts
import HttpFraming.Proofs.RoundTrip.Request
import HttpFraming.Proofs.RoundTrip.Response
import HttpFraming.Proofs.RoundTrip.Accepted
import HttpFraming.Proofs.Stream.Call
import HttpFraming.Proofs.Stream.Chunked
import HttpFraming.Proofs.Stream.Bound
import HttpFraming.Proofs.Stream.Progress
import HttpFraming.Proofs.Stream.Pipeline
import HttpFraming.Proofs.Grammar.Decimal
import HttpFraming.Proofs.Stream.Choice
import HttpFraming.Proofs.Message.Multimap
import HttpFraming.Proofs.Message.ResponseBuilder
import HttpFraming.Proofs.Message.Provenance
import HttpFraming.Proofs.Url.Authority
import HttpFraming.Proofs.Url.WellFormed
import HttpFraming.Proofs.Url.Percent
import HttpFraming.Proofs.Url.Dots
import HttpFraming.Proofs.Url.Idempotence
import HttpFraming.Proofs.Url.Readable
import HttpFraming.Proofs.LifeCycle.Head
import HttpFraming.Proofs.LifeCycle.Body
import HttpFraming.Proofs.Grammar.Trailers
import HttpFraming.Proofs.Stream.Failures
import HttpFraming.Proofs.Url.Query
import HttpFraming.Proofs.FieldValue.TokenList
import HttpFraming.Proofs.FieldValue.QuotedString
import HttpFraming.Proofs.FieldValue.ExtensionList
import HttpFraming.Proofs.FieldValue.Lines
import HttpFraming.Proofs.Url.OutputBuffer
import HttpFraming.Proofs.LifeCycle.Memory
import HttpFraming.Proofs.Stream.Patience
import HttpFraming.Proofs.Url.Spelling
import HttpFraming.Proofs.Url.Encoder
import HttpFraming.Proofs.Url.Recomposition
import HttpFraming.Proofs.Message.PreparedResponse
import HttpFraming.Proofs.Message.ConnectionOptions
import HttpFraming.Proofs.Stream.Conservation
import HttpFraming.Proofs.Stream.Delimited
import HttpFraming.Proofs.Stream.Termination
import HttpFraming.Proofs.Stream.Completion
import HttpFraming.Loop
import HttpFraming.Wire.Checked
import HttpFraming.Wire.Scanner
import HttpFraming.Proofs.Loop
import HttpFraming.Proofs.Checked
import HttpFraming.Proofs.RoundTrip.Version
import HttpFraming.Proofs.Scanner.Octet
import HttpFraming.Proofs.Scanner.Size
import HttpFraming.Proofs.Scanner.Run
import HttpFraming.Proofs.Scanner.Calls
import HttpFraming.Proofs.Stream.WindowReader

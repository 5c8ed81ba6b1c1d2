import ExternalAnnotations.AnnotationType.Basic
import ExternalAnnotations.AnnotationType.ElementType
import ExternalAnnotations.AnnotationType.Instance
import ExternalAnnotations.AnnotationType.Meta
import ExternalAnnotations.Command.Basic
import ExternalAnnotations.Command.Files
import ExternalAnnotations.Command.Settings
import ExternalAnnotations.Diagnostic
import ExternalAnnotations.Header.Name
import ExternalAnnotations.Header.Nullability
import ExternalAnnotations.Header.Reflection
import ExternalAnnotations.Header.Contents
import ExternalAnnotations.Header.TypeReference
import ExternalAnnotations.Index.Basic
import ExternalAnnotations.Index.Cursor
import ExternalAnnotations.Index.Detailed
import ExternalAnnotations.Index.Entry
import ExternalAnnotations.Index.Literal
import ExternalAnnotations.Index.MemberReader
import ExternalAnnotations.Index.Parser
import ExternalAnnotations.Index.Section
import ExternalAnnotations.Index.SyntaxError
import ExternalAnnotations.Index.ValueReader
import ExternalAnnotations.Index.Written
import ExternalAnnotations.Injection.Attachment
import ExternalAnnotations.Injection.Injector
import ExternalAnnotations.Injection.Matching
import ExternalAnnotations.Main
import ExternalAnnotations.Number.Binary
import ExternalAnnotations.Number.Layout
import ExternalAnnotations.Number.Shortest
import ExternalAnnotations.Program.Basic
import ExternalAnnotations.Program.Class
import ExternalAnnotations.Program.Draft
import ExternalAnnotations.Resolution.Basic
import ExternalAnnotations.Resolution.Name
import ExternalAnnotations.Resolution.Value
import ExternalAnnotations.Signature.Descriptor
import ExternalAnnotations.Signature.Name
import ExternalAnnotations.Signature.Type
import ExternalAnnotations.Text.Blank
import ExternalAnnotations.Text.Location
import ExternalAnnotations.Text.Outline
import ExternalAnnotations.Text.Plain
import ExternalAnnotations.Text.Quoted
import ExternalAnnotations.Text.Segments
import ExternalAnnotations.Text.Uppercase
import ExternalAnnotations.Token
import ExternalAnnotations.Token.Lexer
import ExternalAnnotations.Token.Scanner
import ExternalAnnotations.Proofs.Injection.Addition
import ExternalAnnotations.Proofs.Injection.Delivery
import ExternalAnnotations.Proofs.Program.Layout
import ExternalAnnotations.Proofs.Index.Alike
import ExternalAnnotations.Proofs.Index.AlikeBlocks
import ExternalAnnotations.Proofs.Index.Boundaries
import ExternalAnnotations.Proofs.Index.Completeness
import ExternalAnnotations.Proofs.Injection.Diagnostics
import ExternalAnnotations.Proofs.Injection.Dressing
import ExternalAnnotations.Proofs.Injection.Order
import ExternalAnnotations.Proofs.Injection.Visits
import ExternalAnnotations.Proofs.Index.Recovery
import ExternalAnnotations.Proofs.Signature.Codec
import ExternalAnnotations.Proofs.Index.Fragments
import ExternalAnnotations.Proofs.Index.Soundness
import ExternalAnnotations.Proofs.Token.Lossless
import ExternalAnnotations.Proofs.Token.Patterns
import ExternalAnnotations.Proofs.Token.Finding
import ExternalAnnotations.Proofs.Token.Overlap
import ExternalAnnotations.Proofs.Token.LongestMatch
import ExternalAnnotations.Proofs.Program.Naming
import ExternalAnnotations.Proofs.Resolution.Ensuring
import ExternalAnnotations.Proofs.Resolution.Outline
import ExternalAnnotations.Proofs.Resolution.Queries
import ExternalAnnotations.Proofs.Resolution.Typing
import ExternalAnnotations.Proofs.Resolution.History
import ExternalAnnotations.Proofs.Index.Silence
import ExternalAnnotations.Proofs.Program.Search
import ExternalAnnotations.Proofs.Resolution.Origins
import ExternalAnnotations.Proofs.Index.Spacing
import ExternalAnnotations.Proofs.Index.WellFormed
import ExternalAnnotations.Proofs.Resolution.Filling
import ExternalAnnotations.Proofs.Resolution.Marking
import ExternalAnnotations.Proofs.Injection.Selection
import ExternalAnnotations.Proofs.Index.Atomicity
import ExternalAnnotations.Proofs.Resolution.Integers
import ExternalAnnotations.Proofs.Index.Escapes
import ExternalAnnotations.Proofs.Resolution.Constants
import ExternalAnnotations.Proofs.Index.Depth
import ExternalAnnotations.Proofs.Index.DepthBlocks
import ExternalAnnotations.Proofs.Index.Limits
import ExternalAnnotations.Proofs.Program.Replacement
import ExternalAnnotations.Proofs.Program.Ancestry
import ExternalAnnotations.Proofs.Text.Segments
import ExternalAnnotations.Proofs.Index.Pointing
import ExternalAnnotations.Proofs.Token.Unspaced
import ExternalAnnotations.Proofs.Index.Writing
import ExternalAnnotations.Proofs.Index.Printing
import ExternalAnnotations.Proofs.Header.References
import ExternalAnnotations.Proofs.Header.Decisions
import ExternalAnnotations.Proofs.Header.Selectors

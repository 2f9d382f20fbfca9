import DocComments.Chat
import DocComments.Main
import DocComments.Proofs.Doc.Located
import DocComments.Proofs.Insert.Edit
import DocComments.Proofs.Scan.Languages
import DocComments.Proofs.Text.Blank
import DocComments.Proofs.Text.Find
import DocComments.Proofs.Text.Lines
import DocComments.Proofs.Insert.Part
import DocComments.Proofs.Insert.Simultaneous
import DocComments.Proofs.Doc.Layout
import DocComments.Proofs.Header.JavaScript
import DocComments.Proofs.Insert.Block
import DocComments.Proofs.Insert.Outline
import DocComments.Proofs.Insert.LastWrite
import DocComments.Proofs.Insert.Preservation
import DocComments.Proofs.Insert.RoundTrip
import DocComments.Proofs.Scan.Order
import DocComments.Proofs.Doc.Jsdoc
import DocComments.Proofs.Doc.Docstring
import DocComments.Proofs.Scan.Extent
import DocComments.Proofs.Insert.Append
import DocComments.Proofs.Batch.Answers
import DocComments.Proofs.Insert.Untouched
import DocComments.Proofs.Text.Case
import DocComments.Proofs.Parameters
import DocComments.Proofs.Scan.WellFormed
import DocComments.Proofs.Template
import DocComments.Proofs.Insert.Offline
import DocComments.Proofs.Batch.Interleaving
import DocComments.Proofs.History.Memory
import DocComments.Proofs.Json.Text
import DocComments.Proofs.Time.Text
import DocComments.Proofs.History.Operations
import DocComments.Proofs.History.LastSaved
import DocComments.Proofs.History.RecordFile
import DocComments.Proofs.History.Refinement
import DocComments.Proofs.Service.Run
import DocComments.Proofs.Http.Percent
import DocComments.Proofs.Service.Requests
import DocComments.Proofs.Insert.Enclosed
import DocComments.Proofs.Insert.FirstStatement
import DocComments.Proofs.Header.Signature
import DocComments.Proofs.Header.DefLine
import DocComments.Proofs.Header.Shapes
import DocComments.Proofs.Parameters.Written
import DocComments.Proofs.Scan.Fields
import DocComments.Proofs.Doc.Search
import DocComments.Proofs.Text.Words
import DocComments.Proofs.Doc.Canonical
import DocComments.Proofs.Doc.Trimmed
import DocComments.Proofs.Reply.Unwrapped
import DocComments.Proofs.Reply.Docstring
import DocComments.Proofs.Reply.Nested
import DocComments.Proofs.Insert.LineEnds
import DocComments.Proofs.Template.Spelling
import DocComments.Proofs.History.Access
import DocComments.Proofs.Settings
import DocComments.Proofs.Scan.Decorators
import DocComments.Proofs.Wire.Definition

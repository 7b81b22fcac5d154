import FormLetter.Dictionary
import FormLetter.Environment
import FormLetter.Error.Basic
import FormLetter.Error.Cause
import FormLetter.Letter
import FormLetter.Markdown.Block
import FormLetter.Markdown.Token
import FormLetter.Number.Binary64
import FormLetter.Number.Layout
import FormLetter.Number.Shortest
import FormLetter.Proofs.Chains.Choice
import FormLetter.Proofs.Chains.Tree
import FormLetter.Proofs.Concatenation
import FormLetter.Proofs.Coverage.Spans
import FormLetter.Proofs.Coverage.Within
import FormLetter.Proofs.Definite
import FormLetter.Proofs.Dictionary
import FormLetter.Proofs.Digits
import FormLetter.Proofs.Environment
import FormLetter.Proofs.Excerpt.Marks
import FormLetter.Proofs.Excerpt.Places
import FormLetter.Proofs.Excerpt.Window
import FormLetter.Proofs.Faults
import FormLetter.Proofs.Grammar.Construction
import FormLetter.Proofs.Grammar.Derivation
import FormLetter.Proofs.Grammar.Parsing
import FormLetter.Proofs.Grammar.Recognition
import FormLetter.Proofs.Joined
import FormLetter.Proofs.Literal
import FormLetter.Proofs.Located
import FormLetter.Proofs.LookAhead
import FormLetter.Proofs.Markdown.Characters
import FormLetter.Proofs.Markdown.Decoding
import FormLetter.Proofs.Markdown.Documents
import FormLetter.Proofs.Markdown.Elements
import FormLetter.Proofs.Markdown.Folding
import FormLetter.Proofs.Markdown.Lines
import FormLetter.Proofs.Markdown.Markers
import FormLetter.Proofs.Placement
import FormLetter.Proofs.Printing.Legible
import FormLetter.Proofs.Printing.Reading
import FormLetter.Proofs.Printing.Written
import FormLetter.Proofs.Quoted
import FormLetter.Proofs.Rejected
import FormLetter.Proofs.Render.FirstFault
import FormLetter.Proofs.Render.Keys
import FormLetter.Proofs.Render.Paths
import FormLetter.Proofs.Render.Scopes
import FormLetter.Proofs.Render.Tasks
import FormLetter.Proofs.Render.Unrolling
import FormLetter.Proofs.Render.Writing
import FormLetter.Proofs.Resuming.Allowance
import FormLetter.Proofs.Resuming.Calls
import FormLetter.Proofs.Resuming.Relocation
import FormLetter.Proofs.Resuming.Remainder
import FormLetter.Proofs.Segments
import FormLetter.Proofs.Session.Debugging
import FormLetter.Proofs.Session.History
import FormLetter.Proofs.Session.Routes
import FormLetter.Proofs.Session.Steps
import FormLetter.Proofs.Tags
import FormLetter.Proofs.Tokens
import FormLetter.Proofs.Trim
import FormLetter.Proofs.Value.Conversion
import FormLetter.Proofs.Value.Entries
import FormLetter.Proofs.Value.Faults
import FormLetter.Proofs.Value.FirstFault
import FormLetter.Proofs.Value.Ordered
import FormLetter.Proofs.Value.Pieces
import FormLetter.Proofs.Value.Reordering
import FormLetter.Proofs.Value.Unambiguous
import FormLetter.Render.Blocks
import FormLetter.Render.Page
import FormLetter.Session
import FormLetter.Template.Block
import FormLetter.Template.Cursor
import FormLetter.Template.Draft
import FormLetter.Template.Parser
import FormLetter.Template.Segment
import FormLetter.Template.Tag
import FormLetter.Text.Classes
import FormLetter.Text.Cutting
import FormLetter.Text.Record
import FormLetter.Value.Basic
import FormLetter.Value.Json
import FormLetter.Value.OfDatum
import FormLetter.Value.Plain
import FormLetter.Value.Structure
import FormLetter.Value.ToDatum

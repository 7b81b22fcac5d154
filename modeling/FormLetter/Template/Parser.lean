/-
# Parsing templates

A parser works through a template and reports the tree of it, or the first fault.  After a fault it
can be asked again, and then goes on behind the tag that was at fault.  An error is placed at the
line where the unread rest starts.

When a block would be one too many, the parser keeps counting it as open; all other blocks stop
counting when a call ends.
-/
import FormLetter.Error.Basic
import FormLetter.Template.Draft

namespace FormLetter
namespace Template

/-- A template that may be partly parsed. -/
structure Parser where
  /-- The name of the template. -/
  name : String
  /-- Where the unread segments start. -/
  position : Position
  /-- The segments still to be read. -/
  unread : List Segment
  /-- How many blocks count as open at the start of the next call. -/
  counted : Nat

/-- The segments of a template. -/
def segments (source : String) : List Segment := Segment.ofTokens (Token.ofText source.toList)

namespace Parser

/-- The parser at the start of a template. -/
def ofSource (source name : String) : Parser := ⟨name, .start, segments source, 0⟩

/-- The tree of the unread part of the template, and the parser behind what was read. -/
def parse (parser : Parser) : Except Error (List Block) × Parser :=
  let outcome := Draft.empty.run parser.counted parser.position parser.unread
  let rest : Parser := { parser with position := outcome.position, unread := outcome.unread }
  match outcome.result with
  | .ok blocks => (.ok blocks, rest)
  | .error cause =>
    let counted := if cause = .nestingTooDeep then parser.counted + 1 else parser.counted
    (.error { cause, location := some ⟨parser.name, outcome.position.line⟩ }, { rest with counted })

end Parser

/-- The tree of a template with the given name. -/
def parse (source name : String) : Except Error (List Block) :=
  (Parser.ofSource source name).parse.1

/-- The name of a template that was not given any. -/
def unnamed : String := "<string>"

/-- The tree of a template without a name. -/
def compile (source : String) : Except Error (List Block) := parse source unnamed

end Template
end FormLetter

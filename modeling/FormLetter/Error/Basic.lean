/-
# Errors

An error is a cause, the place in a template where it came up, and, if wanted, the source of that
template.  Its message names the kind, the detail and the place; the long message shows the source
around the place as well.

What is shown are the lines of a template around one of its lines, three on either side as far as
there are that many, each with its number.  The line itself is marked with `>`, the others with `|`,
and a rule stands above and below.
-/
import FormLetter.Error.Cause
import FormLetter.Text.Cutting

namespace FormLetter

/-! ### Source excerpts -/

namespace Excerpt

/-- The width of the rules. -/
def width : Nat := 74

/-- How many lines are shown on either side. -/
def margin : Nat := 3

/-- A text with as many of `pad` in front of it as it takes to reach the width. -/
def padStart (pad : Char) (width : Nat) (text : List Char) : List Char :=
  List.replicate (width - text.length) pad ++ text

/-- A text in the middle of a rule.  If the two sides cannot be equal, the right one is longer. -/
def rule (text : List Char) : List Char :=
  let dashes := width - text.length
  List.replicate (dashes / 2) '-' ++ text ++ List.replicate (dashes - dashes / 2) '-'

/-- The title above the excerpt. -/
def title : List Char := " Template Source ".toList

/-- One line of the excerpt: its number, its mark, and its text. -/
def row (mark : Char) (number : Nat) (text : List Char) : List Char :=
  padStart ' ' 4 (Nat.toDigits 10 number) ++ ' ' :: mark :: ' ' :: (text ++ ['\n'])

/-- Consecutive lines that are not marked, the first of them with the given number. -/
def rows (number : Nat) : List (List Char) → List Char
  | [] => []
  | text :: texts => row '|' number text ++ rows (number + 1) texts

/-- The lines around the line number `line`.  Line zero is taken for the first one. -/
def around (line : Nat) (source : String) : String :=
  let lines := Text.lines source.toList
  let index := line - 1
  let first := index - margin
  let before := (lines.drop first).take (index - first)
  let behind := (lines.drop (index + 1)).take margin
  let marked := (lines[index]?).elim [] (row '>' (index + 1))
  String.ofList
    (rule title ++ '\n' ::
      (rows (first + 1) before ++ marked ++ rows (index + 2) behind ++ rule []))

end Excerpt

/-! ### Errors and their messages -/

/-- A line of a named template. -/
structure Location where
  name : String
  line : Nat
deriving DecidableEq

/-- A failure that is reported to the user. -/
structure Error where
  /-- What went wrong. -/
  cause : Cause
  /-- Where it came up. -/
  location : Option Location := none
  /-- The template in which it came up. -/
  source : Option String := none
deriving DecidableEq

namespace Error

/-- The kind of the error. -/
def kind (e : Error) : ErrorKind := e.cause.kind

/-- The detail of the message. -/
def detail (e : Error) : Option String := e.cause.detail

/-- Errors count as equal if they are of one kind. -/
instance : BEq Error := ⟨fun e f => e.kind == f.kind⟩

/-- The error at a place, unless it has one already. -/
def located (e : Error) (location : Location) : Error :=
  { e with location := e.location.or (some location) }

/-- The error with the source of its template, unless it has one already. -/
def withSource (e : Error) (source : String) : Error :=
  { e with source := e.source.or (some source) }

/-- The line of the error, zero if it has no place. -/
def line (e : Error) : Nat := e.location.elim 0 Location.line

/-- The message of the error. -/
def message (e : Error) : String :=
  e.kind.description ++ e.detail.elim "" (": " ++ ·) ++
    e.location.elim "" fun l => " (in " ++ l.name ++ ":" ++ toString l.line ++ ")"

/-- The message with an excerpt of the source below it, if the source is known. -/
def longMessage (e : Error) : String :=
  e.message ++ e.source.elim "" fun source => "\n" ++ Excerpt.around e.line source

/-- The error in record notation. -/
def structureText (e : Error) : String :=
  Text.record "Error"
    [("kind", e.kind.identifier), ("detail", Text.optional e.detail),
      ("name", Text.optional (e.location.map Location.name)), ("lineno", toString e.line)]

end Error
end FormLetter

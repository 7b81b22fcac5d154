/-
# Markdown tokens

Markdown text is read character by character.  A marker counts only at the start of a line: a run of
`#` that a space follows, which gives one heading token for each `#`, or `*` and a space, which give
an item token.  The space belongs to the marker.  A line feed, alone or behind a carriage return,
breaks the line.  Everything else is a letter.
-/

namespace FormLetter
namespace Markdown

/-- A piece of markdown text. -/
inductive Token where
  /-- One `#` of the marker of a heading. -/
  | heading
  /-- The marker of a list item. -/
  | item
  /-- The end of a line. -/
  | lineBreak
  /-- Any other character. -/
  | letter (c : Char)
deriving DecidableEq

/-- What comes before the unread text on its line. -/
inductive Place where
  /-- Nothing. -/
  | lineStart
  /-- A part of the marker of a heading. -/
  | marker
  /-- A complete marker or a letter. -/
  | inLine
deriving DecidableEq

/-- Does a text continue the marker of a heading, with some more `#` or none and a space? -/
def continuesMarker (cs : List Char) : Bool := (cs.dropWhile (· == '#')).head? == some ' '

namespace Token

/-- The tokens of a text at a place on its first line. -/
def read : Place → List Char → List Token
  | _, [] => []
  | _, '\n' :: cs => lineBreak :: read .lineStart cs
  | _, '\r' :: '\n' :: cs => lineBreak :: read .lineStart cs
  | .lineStart, '*' :: ' ' :: cs => item :: read .inLine cs
  | place, '#' :: ' ' :: cs =>
    if place = .inLine then letter '#' :: letter ' ' :: read .inLine cs
    else heading :: read .inLine cs
  | place, c :: cs =>
    if c = '#' ∧ place ≠ .inLine ∧ continuesMarker cs then heading :: read .marker cs
    else letter c :: read .inLine cs

/-- The tokens of a text. -/
def ofText (text : String) : List Token := read .lineStart text.toList

end Token
end Markdown
end FormLetter

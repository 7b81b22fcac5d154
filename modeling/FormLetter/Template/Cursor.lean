/-
# Reading a template token by token

A position is where a character of the template stands: its line, counted from one; its column, the
number of characters before it on its line; and its offset, the number of UTF-8 bytes before it in
the template.  Only a line feed ends a line.

A template is cut into delimiters and single characters.  Two braces in a row are a plain delimiter
and three are a markdown delimiter; longer runs are cut from the left, three braces at a time.  All
else, a brace that stands alone included, is a character of its own.  Nothing is lost: the texts of
the tokens make up the template (`ofText_text`).

A cursor stands between two tokens of a template.  It knows its position and the tokens still
unread, so any number of them can be looked at ahead of time.  At the end of the template it stays
where it is, and there is no next token.
-/
import FormLetter.Text.Record

namespace FormLetter
namespace Template

/-! ### Positions -/

/-- A place in a template. -/
structure Position where
  /-- One plus the number of line feeds before the place. -/
  line : Nat
  /-- The number of characters since the last line feed. -/
  column : Nat
  /-- The number of bytes before the place. -/
  offset : Nat
deriving DecidableEq

namespace Position

/-- Where a template starts. -/
def start : Position := ⟨1, 0, 0⟩

/-- The position behind a character. -/
def next (p : Position) (c : Char) : Position where
  line := if c = '\n' then p.line + 1 else p.line
  column := if c = '\n' then 0 else p.column + 1
  offset := p.offset + c.utf8Size

/-- The position behind a text. -/
def after (p : Position) (cs : List Char) : Position := cs.foldl next p

@[simp] theorem after_nil (p : Position) : p.after [] = p := rfl

theorem after_append (p : Position) (cs ds : List Char) :
    p.after (cs ++ ds) = (p.after cs).after ds := by
  simp [after]

end Position

/-- A stretch of a template. -/
structure Span where
  /-- Where the stretch begins. -/
  start : Position
  /-- Where what follows it begins. -/
  finish : Position
deriving DecidableEq

/-- A span as lines and columns, in the form in which it follows a node of a tree. -/
def Span.suffix (s : Span) : String :=
  " @ " ++ toString s.start.line ++ ":" ++ toString s.start.column ++ "-" ++
    toString s.finish.line ++ ":" ++ toString s.finish.column

/-! ### Tokens -/

/-- The two kinds of tags: plain ones between double braces, and those of markdown fields between
triple braces. -/
inductive Fence where
  | plain
  | markdown
deriving DecidableEq

/-- The delimiter that opens a tag. -/
def Fence.opening : Fence → List Char
  | plain => ['{', '{']
  | markdown => ['{', '{', '{']

/-- The delimiter that closes a tag. -/
def Fence.closing : Fence → List Char
  | plain => ['}', '}']
  | markdown => ['}', '}', '}']

/-- A piece of a template. -/
inductive Token where
  /-- Any single character outside the delimiters. -/
  | character (c : Char)
  /-- The delimiter that opens a tag. -/
  | opening (fence : Fence)
  /-- The delimiter that closes a tag. -/
  | closing (fence : Fence)
deriving DecidableEq

namespace Token

/-- What stands in the template for a token. -/
def text : Token → List Char
  | character c => [c]
  | opening fence => fence.opening
  | closing fence => fence.closing

/-- Is the token a blank character? -/
def isBlank : Token → Bool
  | character c => Text.isBlank c
  | _ => false

/-- The token in the words of an error message. -/
def description : Token → String
  | character c => "character " ++ Text.quote (String.singleton c)
  | opening fence => "`" ++ String.ofList fence.opening ++ "`"
  | closing fence => "`" ++ String.ofList fence.closing ++ "`"

/-- The tokens of a text. -/
def ofText : List Char → List Token
  | '{' :: '{' :: '{' :: cs => opening .markdown :: ofText cs
  | '{' :: '{' :: cs => opening .plain :: ofText cs
  | '}' :: '}' :: '}' :: cs => closing .markdown :: ofText cs
  | '}' :: '}' :: cs => closing .plain :: ofText cs
  | c :: cs => character c :: ofText cs
  | [] => []

/-- Tokens in a row, each with the span that it takes up when the first one stands at `p`. -/
def located (p : Position) : List Token → List (Token × Span)
  | [] => []
  | t :: ts => (t, ⟨p, p.after t.text⟩) :: located (p.after t.text) ts

/-- The texts of the tokens of a text make up that text. -/
theorem ofText_text (cs : List Char) : (ofText cs).flatMap text = cs := by
  fun_induction ofText cs <;> simp_all [text, Fence.opening, Fence.closing]

end Token

/-! ### Cursors -/

/-- A reading position in a template. -/
structure Cursor where
  position : Position
  unread : List Token

namespace Cursor

/-- The cursor at the start of a template. -/
def ofSource (source : String) : Cursor := ⟨.start, Token.ofText source.toList⟩

/-- The next token, unless the template is at its end, with its span, and the cursor behind it. -/
def next (cursor : Cursor) : Option Token × Span × Cursor :=
  match cursor.unread with
  | [] => (none, ⟨cursor.position, cursor.position⟩, cursor)
  | t :: ts =>
    let position := cursor.position.after t.text
    (some t, ⟨cursor.position, position⟩, ⟨position, ts⟩)

/-- The token that comes after `n` others, if the template is long enough. -/
def peek (cursor : Cursor) (n : Nat) : Option Token := cursor.unread[n]?

end Cursor
end Template
end FormLetter

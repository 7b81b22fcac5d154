/-
# Markdown blocks

The tokens of a text make up headings, list items and paragraphs.  A heading is one line.  An item
or a paragraph goes on over the lines that directly follow it and start with a letter; these lines
are trimmed and joined by single spaces, and a line of blanks adds nothing.  The level of a heading
is the number of its tokens.

Blocks become HTML elements, one to a line.  Items in a row make up one list, on one line.  The
texts are not escaped.
-/
import FormLetter.Markdown.Token
import FormLetter.Text.Cutting
import FormLetter.Text.Record

namespace FormLetter
namespace Markdown

/-! ### Reading blocks -/

/-- A part of a markdown text. -/
inductive Block where
  | heading (level : Nat) (text : String)
  | paragraph (text : String)
  | item (text : String)
deriving DecidableEq

/-- The blocks that go on over several lines. -/
inductive Flow where
  | paragraph
  | item

/-- The block of a flow with the given text. -/
def Flow.block : Flow → List Char → Block
  | paragraph, text => .paragraph (String.ofList text)
  | item, text => .item (String.ofList text)

/-- A text with one more line, trimmed, behind it. -/
def addLine (text line : List Char) : List Char :=
  match text, Text.trim line with
  | text, [] => text
  | [], line => line
  | text, line => text ++ ' ' :: line

/-- A block that is being read.  Lines are kept last letter first. -/
inductive Draft where
  /-- No block. -/
  | none
  /-- A heading: its level and its line so far. -/
  | heading (level : Nat) (line : List Char)
  /-- An item or a paragraph: the text of its earlier lines, and its line so far. -/
  | flow (kind : Flow) (text line : List Char)
  /-- An item or a paragraph that goes on if the next line starts with a letter. -/
  | pause (kind : Flow) (text : List Char)

namespace Draft

/-- The block that a draft is, if nothing is added to it. -/
def finish : Draft → List Block
  | none => []
  | heading level line => [.heading level (String.ofList (Text.trim line.reverse))]
  | flow kind text line => [kind.block (addLine text line.reverse)]
  | pause kind text => [kind.block text]

/-- The draft that a token opens where no block is being read. -/
def start : Token → Draft
  | .heading => heading 1 []
  | .item => flow .item [] []
  | .lineBreak => none
  | .letter c => flow .paragraph [] [c]

/-- The draft with one more token, unless that token is not part of the block. -/
def extend : Draft → Token → Option Draft
  | heading level [], .heading => some (heading (level + 1) [])
  | heading level line, .letter c => some (heading level (c :: line))
  | flow kind text line, .letter c => some (flow kind text (c :: line))
  | flow kind text line, .lineBreak => some (pause kind (addLine text line.reverse))
  | pause kind text, .letter c => some (flow kind text [c])
  | _, _ => Option.none

end Draft

namespace Block

/-- The blocks of the tokens behind a draft, that of the draft included. -/
def behind (d : Draft) : List Token → List Block
  | [] => d.finish
  | t :: ts =>
    match d.extend t with
    | some next => behind next ts
    | none => d.finish ++ behind (.start t) ts

/-- The blocks of a row of tokens. -/
def ofTokens (ts : List Token) : List Block := behind .none ts

end Block

/-! ### Blocks as HTML -/

/-- An HTML element of its own: a heading, a paragraph, or the list of the items in a row. -/
inductive Element where
  | heading (level : Nat) (text : String)
  | paragraph (text : String)
  | list (items : List String)
deriving DecidableEq

namespace Element

/-- The elements of a row of blocks. -/
def ofBlocks : List Block → List Element
  | [] => []
  | .heading level text :: blocks => heading level text :: ofBlocks blocks
  | .paragraph text :: blocks => paragraph text :: ofBlocks blocks
  | .item text :: blocks =>
    match ofBlocks blocks with
    | list items :: elements => list (text :: items) :: elements
    | elements => list [text] :: elements

/-- A text between the tags of an element. -/
def wrap (name text : String) : String := "<" ++ name ++ ">" ++ text ++ "</" ++ name ++ ">"

/-- The HTML text of an element. -/
def html : Element → String
  | heading level text => wrap ("h" ++ toString level) text
  | paragraph text => wrap "p" text
  | list items => wrap "ul" (Text.joined "" (items.map (wrap "li")))

end Element

/-- The HTML text of a row of blocks. -/
def html (blocks : List Block) : String :=
  Text.joined "\n" ((Element.ofBlocks blocks).map Element.html)

/-- The HTML text of a markdown text. -/
def toHtml (text : String) : String := html (Block.ofTokens (Token.ofText text))

end Markdown
end FormLetter

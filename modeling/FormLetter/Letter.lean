/-
# Letters

A letter is a template under its name, together with the tree of its blocks.  It is filled in with
data, which is made a value first.
-/
import FormLetter.Markdown.Block
import FormLetter.Render.Blocks
import FormLetter.Template.Parser
import FormLetter.Value.OfDatum

namespace FormLetter

/-- A template with its name and its tree. -/
structure Letter where
  name : String
  source : String
  blocks : List Template.Block

namespace Letter

/-- The letter of a template. -/
def ofSource (name source : String) : Except Error Letter :=
  (Template.parse source name).map fun blocks => { name, source, blocks }

/-- The letter in record notation. -/
def structureText (letter : Letter) : String :=
  Text.record "Template" [("name", Text.quote letter.name)]

end Letter

/-- The value of data, or the error without a place that says why there is none. -/
def Value.ofData (data : Datum) : Except Error Value :=
  (Value.ofDatum data).mapError fun cause => { cause }

/-- Fills in blocks from no template in particular, reading markdown as HTML. -/
def render (blocks : List Template.Block) (data : Datum) : Except Error String := do
  let root ← Value.ofData data
  Render.letter { root, markdown := Markdown.toHtml, name := Template.unnamed } blocks

end FormLetter

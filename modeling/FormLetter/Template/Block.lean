/-
# Blocks

The tree that a template is made into.  A block is a run of text, a field, a markdown field, a
condition with two bodies, or a loop over a body, and it knows the stretch of the template that it
was read from.  An alternative under a condition of its own is one conditional block within the
alternative, which ends where the condition around it ends.
-/
import FormLetter.Template.Cursor
import FormLetter.Text.Record

namespace FormLetter
namespace Template

/-- A part of a template. -/
inductive Block where
  /-- A run of text. -/
  | text (content : String) (span : Span)
  /-- The place of the value at a path. -/
  | field (path : String) (span : Span)
  /-- The place of the text at a path, read as markdown. -/
  | markdown (path : String) (span : Span)
  /-- One of two bodies, depending on the value at the path `condition`. -/
  | conditional (condition : String) (consequence alternative : List Block) (span : Span)
  /-- A body for each item of the sequence at the path `source`. -/
  | loop (source : String) (body : List Block) (span : Span)

namespace Block

instance : Inhabited Block := ⟨.text "" ⟨.start, .start⟩⟩

/-- The stretch of the template that the block was read from. -/
def span : Block → Span
  | text _ span => span
  | field _ span => span
  | markdown _ span => span
  | conditional _ _ _ span => span
  | loop _ _ span => span

/-- What the block is, in words. -/
def description : Block → String
  | text _ _ => "text"
  | field _ _ => "interpolation"
  | markdown _ _ => "markdown interpolation"
  | conditional _ _ _ _ => "if block"
  | loop _ _ _ => "each block"

mutual

/-- A block in record notation, followed by its span. -/
def structureText : Block → String
  | text content span => Text.record "Text" [("content", Text.quote content)] ++ span.suffix
  | field path span => Text.record "Replace" [("path", Text.quote path)] ++ span.suffix
  | markdown path span => Text.record "MdReplace" [("path", Text.quote path)] ++ span.suffix
  | conditional condition consequence alternative span =>
    Text.record "IfCond"
      [("condition", Text.quote condition),
        ("consequence", Text.listing (structureTexts consequence)),
        ("alternative", Text.listing (structureTexts alternative))] ++ span.suffix
  | loop source body span =>
    Text.record "Loop"
      [("source", Text.quote source), ("body", Text.listing (structureTexts body))] ++ span.suffix

/-- Blocks in record notation. -/
def structureTexts : List Block → List String
  | [] => []
  | b :: blocks => structureText b :: structureTexts blocks

end

/-- A whole tree in record notation. -/
def treeText (blocks : List Block) : String :=
  Text.record "Ast" [("blocks", Text.listing (structureTexts blocks))]

end Block
end Template
end FormLetter

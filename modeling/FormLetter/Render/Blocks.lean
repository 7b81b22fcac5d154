/-
# Filling in blocks

The blocks of a letter are filled in one after the other, each going on with the page as the one
before it left it.  The first block that cannot be filled in ends the letter; its error is placed at
the line where that block starts.  A block inside another one is placed before the outer one is, so
the error keeps the line of the innermost block.
-/
import FormLetter.Error.Basic
import FormLetter.Render.Page
import FormLetter.Template.Block
import FormLetter.Value.Basic

namespace FormLetter
namespace Render

open Template (Block)

/-- What a letter is filled in with. -/
structure Setting where
  /-- The value that paths are looked up in. -/
  root : Value
  /-- How a text is read as markdown. -/
  markdown : String → String
  /-- The name of the template. -/
  name : String

/-- The end of a step, and the page that it leaves. -/
abbrev Outcome := Except Error Unit × Page

/-- A step that fails without writing anything. -/
def fail (cause : Cause) (page : Page) : Outcome := (.error { cause }, page)

/-- One round of a loop for each item, up to the first round that fails. -/
def rounds (body : Page → Outcome) : List Value → Page → Outcome
  | [], page => (.ok (), page)
  | item :: items, page =>
    match body (page.enter item) with
    | (.ok _, page) => rounds body items page.leave
    | (.error e, page) => (.error e, page.leave)

mutual

/-- Fills in a block. -/
def block (setting : Setting) : Block → Page → Outcome
  | .text content _, page => (.ok (), page.write content)
  | .field path _, page =>
    match page.resolve setting.root path with
    | .error cause => fail cause page
    | .ok v => (.ok (), page.write v.text)
  | .markdown path _, page =>
    match page.resolve setting.root path with
    | .error cause => fail cause page
    | .ok v =>
      match v.text? with
      | some s => (.ok (), page.write (setting.markdown s))
      | none => fail (.textExpected path v.kind) page
  | .conditional condition consequence alternative _, page =>
    match page.resolve setting.root condition with
    | .error cause => fail cause page
    | .ok v =>
      match v.truth? with
      | some true => blocks setting consequence page
      | some false => blocks setting alternative page
      | none => fail (.truthExpected condition v.kind) page
  | .loop source body _, page =>
    match page.resolve setting.root source with
    | .error cause => fail cause page
    | .ok v =>
      match v.items? with
      | some items => rounds (blocks setting body) items page
      | none => fail (.sequenceExpected source v.kind) page

/-- Fills in blocks, up to the first one that fails. -/
def blocks (setting : Setting) : List Block → Page → Outcome
  | [], page => (.ok (), page)
  | b :: rest, page =>
    match block setting b page with
    | (.ok _, page) => blocks setting rest page
    | (.error e, page) => (.error (e.located ⟨setting.name, b.span.start.line⟩), page)

end

/-- The text of a letter with the given blocks. -/
def letter (setting : Setting) (bs : List Block) : Except Error String :=
  match blocks setting bs .blank with
  | (.ok _, page) => .ok page.output
  | (.error e, _) => .error e

end Render
end FormLetter

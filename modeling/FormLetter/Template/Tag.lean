/-
# Tags

What a tag between double braces says.  Blanks around the contents do not count.

* `#` and a keyword open a block; the rest of the tag is what the block is about.
* `/` and a name close a block.
* The words `else` and `elseif` go on with a block; `elseif` has a condition of its own.
* Anything else is the path of a field.

Whether a tag closes or goes on with a block can be told from its first word, before the tag has
been read to its end: `continuesBlock` looks only as far as that.
-/
import FormLetter.Template.Cursor
import FormLetter.Text.Cutting

namespace FormLetter
namespace Template

/-- What a tag between double braces says. -/
inductive Tag where
  /-- Opens a block. -/
  | directive (keyword argument : String)
  /-- Closes the block of the given name. -/
  | close (name : String)
  /-- Begins the alternative of a condition.  Nothing may follow the word in the tag. -/
  | otherwise (rest : String)
  /-- Begins an alternative under a condition of its own. -/
  | otherwiseIf (condition : String)
  /-- Stands for the value at a path. -/
  | path (path : String)
deriving DecidableEq

namespace Tag

/-- The word that begins an alternative. -/
def elseWord : List Char := ['e', 'l', 's', 'e']

/-- The word that begins an alternative under a condition. -/
def elseIfWord : List Char := ['e', 'l', 's', 'e', 'i', 'f']

/-- What a tag with the given contents says. -/
def classify (contents : List Char) : Tag :=
  match Text.trim contents with
  | '#' :: rest =>
    let (keyword, argument) := Text.splitWord rest
    directive (String.ofList keyword) (String.ofList argument)
  | '/' :: rest => close (String.ofList (Text.trim rest))
  | trimmed =>
    let (word, rest) := Text.splitWord trimmed
    if word = elseWord then otherwise (String.ofList rest)
    else if word = elseIfWord then otherwiseIf (String.ofList rest)
    else path (String.ofList trimmed)

/-- Does the tag close or go on with a block? -/
def continues : Tag → Bool
  | close _ => true
  | otherwise _ => true
  | otherwiseIf _ => true
  | directive _ _ => false
  | path _ => false

end Tag

/-- The characters before the first blank or the end of the tag, if the tag goes that far without
another delimiter in between. -/
def firstWord? : List Token → Option (List Char)
  | .character c :: ts =>
    if Text.isBlank c then some [] else (firstWord? ts).map (c :: ·)
  | .closing .plain :: _ => some []
  | _ => none

/-- Do the tokens behind an opening delimiter start a tag that closes or goes on with a block? -/
def continuesBlock (ahead : List Token) : Bool :=
  match ahead.dropWhile Token.isBlank with
  | .character '/' :: _ => true
  | ts => firstWord? ts == some Tag.elseWord || firstWord? ts == some Tag.elseIfWord

end Template
end FormLetter

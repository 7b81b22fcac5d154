/-
# Environments

An environment keeps letters by name, and says how they are filled in: how markdown is read, and
whether errors carry the source of their template.  The letters do not depend on these settings, so
a change of settings holds for all of them.
-/
import FormLetter.Letter

namespace FormLetter

/-- Letters and the settings that they are filled in under. -/
structure Environment where
  /-- The letters, by name. -/
  letters : Dictionary Letter := .empty
  /-- How a text is read as markdown. -/
  markdown : String → String := Markdown.toHtml
  /-- Do errors carry the source of their template? -/
  debug : Bool := true

namespace Environment

/-- An error as the environment reports it, when it came up in the template with the given source.
-/
def report (env : Environment) (source : String) (e : Error) : Error :=
  if env.debug then e.withSource source else e

/-- The environment in which the name stands for the given template.  A template without a tree is
refused. -/
def add (env : Environment) (name source : String) : Except Error Environment :=
  match Letter.ofSource name source with
  | .ok letter => .ok { env with letters := env.letters.insert name letter }
  | .error e => .error (env.report source e)

/-- The environment in which the name stands for nothing. -/
def remove (env : Environment) (name : String) : Environment :=
  { env with letters := env.letters.erase name }

/-- The letter of the given name. -/
def get (env : Environment) (name : String) : Except Error Letter :=
  match env.letters.get? name with
  | some letter => .ok letter
  | none => .error { cause := .templateMissing name }

/-- Fills in blocks with a value, under the settings of the environment. -/
def fill (env : Environment) (name : String) (blocks : List Template.Block) (root : Value) :
    Except Error String :=
  Render.letter { root, markdown := env.markdown, name } blocks

/-- Fills in a letter. -/
def render (env : Environment) (letter : Letter) (data : Datum) : Except Error String :=
  (Value.ofData data >>= env.fill letter.name letter.blocks).mapError (env.report letter.source)

/-- Fills in a template that is not kept under any name.  The data is looked at before the template.
-/
def renderText (env : Environment) (source : String) (data : Datum) : Except Error String :=
  (do
    let root ← Value.ofData data
    let blocks ← Template.compile source
    env.fill Template.unnamed blocks root).mapError (env.report source)

/-- The environment in record notation. -/
def structureText (env : Environment) : String :=
  Text.record "Environment" [("templates", Text.listing (env.letters.keys.map Text.quote))]

end Environment
end FormLetter

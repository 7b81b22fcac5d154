/-
# Sessions

A session works on several environments, one of which is the current one.  Each step looks at the
current environment, changes it, or replaces the choice of it; the others stay as they are.
-/
import FormLetter.Environment

namespace FormLetter

/-- Environments, one of which is the current one. -/
structure Session where
  environments : List Environment
  /-- The place of the current environment. -/
  current : Nat
  current_lt : current < environments.length

namespace Session

/-- A step of a session. -/
inductive Step where
  /-- Keep a template under a name. -/
  | add (name source : String)
  /-- Keep no template under a name. -/
  | remove (name : String)
  /-- Look at the letter of a name. -/
  | get (name : String)
  /-- Fill in the letter of a name. -/
  | render (name : String) (data : Datum)
  /-- Fill in a template. -/
  | renderText (source : String) (data : Datum)
  /-- Choose whether errors carry the source of their template. -/
  | setDebug (on : Bool)
  /-- Ask whether errors carry the source of their template. -/
  | debug
  /-- Choose how markdown is read. -/
  | setMarkdown (markdown : String → String)
  /-- Add a copy of the current environment and make it the current one. -/
  | clone
  /-- Make another environment the current one. -/
  | switch (index : Nat)
  /-- Start over with the current environment. -/
  | reset
  /-- Ask for the names of the letters. -/
  | summary

/-- What a step answers. -/
inductive Answer where
  | done
  | letter (letter : Letter)
  | text (text : String)
  | flag (on : Bool)
  | index (index : Nat)
  | summary (text : String)
  | failed (e : Error)

/-- The session at its start. -/
def initial : Session := ⟨[{}], 0, by decide⟩

/-- The current environment. -/
def environment (s : Session) : Environment := s.environments.get ⟨s.current, s.current_lt⟩

/-- The session with another environment in the place of the current one. -/
def update (s : Session) (env : Environment) : Session :=
  ⟨s.environments.set s.current env, s.current, by simpa using s.current_lt⟩

/-- The session with a copy of the current environment, which becomes the current one. -/
def clone (s : Session) : Session :=
  ⟨s.environments ++ [s.environment], s.environments.length, by simp⟩

/-- The session with another environment as the current one, if there is one at that place. -/
def switch (s : Session) (index : Nat) : Session :=
  if h : index < s.environments.length then ⟨s.environments, index, h⟩ else s

/-- The answer that a result is. -/
def answer {α : Type} (ok : α → Answer) : Except Error α → Answer
  | .ok a => ok a
  | .error e => .failed e

/-- Takes a step. -/
def step (s : Session) : Step → Answer × Session
  | .add name source =>
    match s.environment.add name source with
    | .ok env => (.done, s.update env)
    | .error e => (.failed e, s)
  | .remove name => (.done, s.update (s.environment.remove name))
  | .get name => (answer .letter (s.environment.get name), s)
  | .render name data =>
    (answer .text (s.environment.get name >>= (s.environment.render · data)), s)
  | .renderText source data => (answer .text (s.environment.renderText source data), s)
  | .setDebug on => (.flag on, s.update { s.environment with debug := on })
  | .debug => (.flag s.environment.debug, s)
  | .setMarkdown markdown => (.done, s.update { s.environment with markdown })
  | .clone => (.index s.clone.current, s.clone)
  | .switch index => (.index (s.switch index).current, s.switch index)
  | .reset => (.done, s.update {})
  | .summary => (.summary s.environment.structureText, s)

/-- Takes steps one after the other. -/
def run (s : Session) : List Step → List Answer
  | [] => []
  | step :: steps => (s.step step).1 :: run (s.step step).2 steps

end Session
end FormLetter

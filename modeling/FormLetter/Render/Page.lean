/-
# The page that is being written

A path names a value inside another one: its segments, which stand between dots, are keys of maps
inside maps.  Since a key may itself contain dots, all segments together are tried as one key first,
and only if there is none does the first segment lead on to the map that the others are looked up
in.

While a letter is filled in there is a page: the text written so far, and the items of the loops
that are running, the innermost first.  A path is looked up in the root, the value that the whole
letter is filled in with; inside a loop `this` is the item of the innermost one, and a path that
starts with `this.` is looked up in that item.
-/
import FormLetter.Error.Cause
import FormLetter.Text.Cutting

namespace FormLetter
namespace Render

/-! ### Paths -/

/-- The segments of a path. -/
def segments (path : String) : List (List Char) := Text.parts '.' path.toList

/-- Segments as one key. -/
def wholeKey (segments : List (List Char)) : String := String.ofList (Text.join '.' segments)

/-- The value that the segments lead to. -/
def follow (v : Value) : List (List Char) → Option Value
  | [] => none
  | [segment] => v.get? (wholeKey [segment])
  | segment :: next :: rest =>
    match v.get? (wholeKey (segment :: next :: rest)) with
    | some found => some found
    | none => (v.get? (String.ofList segment)).bind fun inner => follow inner (next :: rest)

/-- The value at a path. -/
def lookup (v : Value) (path : String) : Option Value := follow v (segments path)

/-! ### Pages -/

/-- A letter that is being filled in. -/
structure Page where
  /-- The items of the running loops, innermost first. -/
  items : List Value
  /-- The text written so far. -/
  output : String

/-- The path, relative to the item of a loop, of a path that starts there. -/
def relative? (path : String) : Option String :=
  match path.toList with
  | 't' :: 'h' :: 'i' :: 's' :: '.' :: rest => some (String.ofList rest)
  | _ => none

namespace Page

/-- The page before anything is written. -/
def blank : Page := ⟨[], ""⟩

/-- The page with some more text. -/
def write (page : Page) (text : String) : Page := { page with output := page.output ++ text }

/-- The page at the start of a round of a loop. -/
def enter (page : Page) (item : Value) : Page := { page with items := item :: page.items }

/-- The page at the end of a round of a loop. -/
def leave (page : Page) : Page := { page with items := page.items.tail }

/-- The value at a path, if there is any. -/
def find? (page : Page) (root : Value) (path : String) : Option Value :=
  match page.items with
  | [] => lookup root path
  | item :: _ =>
    if path = "this" then some item
    else
      match relative? path with
      | some rest => lookup item rest
      | none => lookup root path

/-- The value at a path.  The absence of a value is as good as no value. -/
def resolve (page : Page) (root : Value) (path : String) : Except Cause Value :=
  match page.find? root path with
  | none => .error (.valueMissing path)
  | some v => if v.isNone then .error (.valueMissing path) else .ok v

end Page
end Render
end FormLetter

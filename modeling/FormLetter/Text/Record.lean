/-
# Record notation

The one-line notation in which structured data is shown to a developer: a record is its name and its
fields between braces, a list stands between brackets, and a part that may be absent is `None` or
`Some(…)`.  A text stands between double quotes, and every character in it can be told apart by eye.

* A double quote and a backslash are preceded by a backslash.
* The null character, tab, line feed and carriage return are written `\0`, `\t`, `\n` and `\r`.
* Every other character that is extending or unprintable is written as its code point, in lower
  case hexadecimal digits without leading zeros, as in `\u{301}`.
* All other characters, the single quote among them, stand for themselves.
-/
import FormLetter.Text.Classes

namespace FormLetter
namespace Text

/-! ### Quoted text -/

/-- A code point spelled out in hexadecimal digits. -/
def codePoint (c : Char) : List Char :=
  '\\' :: 'u' :: '{' :: (Nat.toDigits 16 c.toNat ++ ['}'])

/-- How a character is written inside quotes. -/
def escape (c : Char) : List Char :=
  if c = '\x00' then ['\\', '0']
  else if c = '\t' then ['\\', 't']
  else if c = '\n' then ['\\', 'n']
  else if c = '\r' then ['\\', 'r']
  else if c = '\\' then ['\\', '\\']
  else if c = '"' then ['\\', '"']
  else if isExtending c || isUnprintable c then codePoint c
  else [c]

/-- A text between double quotes. -/
def quote (s : String) : String :=
  String.ofList ('"' :: (s.toList.flatMap escape ++ ['"']))

/-! ### Records and lists -/

/-- Texts one after the other, with a separator between any two neighbours. -/
def joined (separator : String) : List String → String
  | [] => ""
  | [text] => text
  | text :: texts => text ++ separator ++ joined separator texts

/-- Texts between brackets. -/
def listing (texts : List String) : String := "[" ++ joined ", " texts ++ "]"

/-- Texts between braces. -/
def braced (texts : List String) : String := "\x7b" ++ joined ", " texts ++ "\x7d"

/-- A name applied to a text in parentheses. -/
def applied (name text : String) : String := name ++ "(" ++ text ++ ")"

/-- A record with at least one field, as in `Point { x: 1, y: 2 }`. -/
def record (name : String) (fields : List (String × String)) : String :=
  name ++ " \x7b " ++ joined ", " (fields.map fun (field, text) => field ++ ": " ++ text) ++ " \x7d"

/-- A quoted text that may be absent. -/
def optional : Option String → String
  | none => "None"
  | some s => applied "Some" (quote s)

end Text
end FormLetter

/-
# Values as JSON

The compact JSON text of a value: no blanks, keys in the order of the map, and `null` for what JSON
has no number for.
-/
import FormLetter.Number.Layout
import FormLetter.Text.Record
import FormLetter.Value.Basic

namespace FormLetter
namespace Value

/-- Numbers in JSON are written positionally from `10 ^ (-5)` up to, but not including, `10 ^ 16`;
of two equally near decimals the even one is taken. -/
def jsonLayout : Layout where
  positional := fun power => -5 ≤ power && power < 16
  tie := .even
  nan := "null"
  infinity := "null"
  negativeInfinity := "null"

/-- The lowest byte of a code point in two hexadecimal digits. -/
def twoHexDigits (n : Nat) : List Char := [Nat.digitChar (n / 16 % 16), Nat.digitChar (n % 16)]

/-- How a character is written in a JSON string.  Only quotes, backslashes and the control
characters below the space are escaped. -/
def jsonEscape (c : Char) : List Char :=
  if c = '"' then ['\\', '"']
  else if c = '\\' then ['\\', '\\']
  else if c = '\x08' then ['\\', 'b']
  else if c = '\t' then ['\\', 't']
  else if c = '\n' then ['\\', 'n']
  else if c = '\x0c' then ['\\', 'f']
  else if c = '\r' then ['\\', 'r']
  else if c.toNat < 0x20 then '\\' :: 'u' :: '0' :: '0' :: twoHexDigits c.toNat
  else [c]

/-- A text as a JSON string. -/
def jsonString (s : String) : String :=
  String.ofList ('"' :: (s.toList.flatMap jsonEscape ++ ['"']))

mutual

/-- The JSON text of a value. -/
def json : Value → String
  | none => "null"
  | bool b => if b then "true" else "false"
  | int n => toString n.toInt
  | float x => jsonLayout.write x
  | string s => jsonString s
  | seq items => "[" ++ Text.joined "," (itemsJson items) ++ "]"
  | map entries => "\x7b" ++ Text.joined "," (entriesJson entries) ++ "\x7d"

/-- The JSON texts of the items of a sequence. -/
def itemsJson : List Value → List String
  | [] => []
  | v :: items => json v :: itemsJson items

/-- The JSON texts of the entries of a map. -/
def entriesJson : List (String × Value) → List String
  | [] => []
  | (key, v) :: entries => (jsonString key ++ ":" ++ json v) :: entriesJson entries

end

end Value
end FormLetter

/-
# The structure of a value

A value in record notation, each part marked with its form.  Numbers with a fraction are written
with an exponent when they are large or small.
-/
import FormLetter.Number.Layout
import FormLetter.Text.Record
import FormLetter.Value.Basic

namespace FormLetter
namespace Value

/-- Numbers in record notation are written positionally from `10 ^ (-4)` up to, but not including,
`10 ^ 16`; of two equally near decimals the larger one is taken. -/
def structureLayout : Layout where
  positional := fun power => -4 ≤ power && power < 16
  tie := .up
  nan := "NaN"
  infinity := "inf"
  negativeInfinity := "-inf"

mutual

/-- A value in record notation. -/
def structureText : Value → String
  | none => "None"
  | bool b => Text.applied "Bool" (if b then "true" else "false")
  | int n => Text.applied "Int" (toString n.toInt)
  | float x => Text.applied "Float" (structureLayout.write x)
  | string s => Text.applied "String" (Text.quote s)
  | seq items => Text.applied "Seq" (Text.listing (itemStructures items))
  | map entries => Text.applied "Map" (Text.braced (entryStructures entries))

/-- The items of a sequence in record notation. -/
def itemStructures : List Value → List String
  | [] => []
  | v :: items => structureText v :: itemStructures items

/-- The entries of a map in record notation. -/
def entryStructures : List (String × Value) → List String
  | [] => []
  | (key, v) :: entries =>
    (Text.quote key ++ ": " ++ structureText v) :: entryStructures entries

end

end Value
end FormLetter

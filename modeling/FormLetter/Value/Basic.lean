/-
# Values

The values that a letter is filled in with: nothing, truth values, numbers, texts, sequences, and
maps from keys to values.

The text of a value is what stands in a letter for it.  A text stands for itself; inside a sequence
or a map it is quoted, as keys are, so that the parts can be told apart.  Numbers with a fraction are
written positionally whatever their size.
-/
import FormLetter.Dictionary
import FormLetter.Number.Layout
import FormLetter.Text.Record

namespace FormLetter

/-- A value of a letter. -/
inductive Value where
  /-- The absence of a value. -/
  | none
  /-- A truth value. -/
  | bool (b : Bool)
  /-- A whole number. -/
  | int (n : Int64)
  /-- A number with a fraction. -/
  | float (x : Binary64)
  /-- A text. -/
  | string (s : String)
  /-- Values in a row. -/
  | seq (items : List Value)
  /-- Values under keys: the entries of a dictionary. -/
  | map (entries : List (String × Value))

namespace Value

instance : Inhabited Value := ⟨.none⟩

/-- The kinds of values. -/
inductive Kind where
  | none
  | bool
  | number
  | string
  | sequence
  | map
deriving DecidableEq

/-- The word for a kind. -/
def Kind.word : Kind → String
  | none => "none"
  | bool => "bool"
  | number => "number"
  | string => "string"
  | sequence => "sequence"
  | map => "map"

/-- The kind of a value.  Whole numbers and numbers with a fraction are of one kind. -/
def kind : Value → Kind
  | none => .none
  | bool _ => .bool
  | int _ => .number
  | float _ => .number
  | string _ => .string
  | seq _ => .sequence
  | map _ => .map

/-- Is the value absent? -/
def isNone : Value → Bool
  | none => true
  | _ => false

/-- What a condition makes of the value: a text, a sequence or a map is true unless it is empty, and
neither a number nor the absence of a value has a truth value. -/
def truth? : Value → Option Bool
  | bool b => some b
  | string s => some (!s.isEmpty)
  | seq items => some (!items.isEmpty)
  | map entries => some (!entries.isEmpty)
  | none => Option.none
  | int _ => Option.none
  | float _ => Option.none

/-- The text that the value is. -/
def text? : Value → Option String
  | string s => some s
  | _ => Option.none

/-- The items of a sequence. -/
def items? : Value → Option (List Value)
  | seq items => some items
  | _ => Option.none

/-- The value under a key of a map. -/
def get? (key : String) : Value → Option Value
  | map entries => Dictionary.get? key entries
  | _ => Option.none

/-! ### Equality

Values are equal if they are of one form and have equal parts.  Numbers with a fraction are compared
as numbers, so a value that contains what is not a number does not equal itself. -/

mutual

/-- Are the two values equal? -/
protected def beq : Value → Value → Bool
  | none, none => true
  | bool a, bool b => a == b
  | int m, int n => m == n
  | float x, float y => x == y
  | string s, string t => s == t
  | seq as, seq bs => beqItems as bs
  | map as, map bs => beqEntries as bs
  | _, _ => false

/-- Are the values of two rows equal, one by one? -/
def beqItems : List Value → List Value → Bool
  | [], [] => true
  | a :: as, b :: bs => Value.beq a b && beqItems as bs
  | _, _ => false

/-- Are the entries of two dictionaries equal, one by one? -/
def beqEntries : List (String × Value) → List (String × Value) → Bool
  | [], [] => true
  | (k, a) :: as, (l, b) :: bs => k == l && Value.beq a b && beqEntries as bs
  | _, _ => false

end

instance : BEq Value := ⟨Value.beq⟩

/-! ### The text of a value -/

/-- Numbers in a letter are always written positionally; of two equally near decimals the larger one
is taken. -/
def numberLayout : Layout where
  positional := fun _ => true
  tie := .up
  nan := "NaN"
  infinity := "inf"
  negativeInfinity := "-inf"

mutual

/-- The text of a value inside a sequence or a map. -/
def innerText : Value → String
  | none => "none"
  | bool b => if b then "true" else "false"
  | int n => toString n.toInt
  | float x => numberLayout.write x
  | string s => Text.quote s
  | seq items => Text.listing (itemTexts items)
  | map entries => Text.braced (entryTexts entries)

/-- The texts of the items of a sequence. -/
def itemTexts : List Value → List String
  | [] => []
  | v :: items => innerText v :: itemTexts items

/-- The texts of the entries of a map. -/
def entryTexts : List (String × Value) → List String
  | [] => []
  | (key, v) :: entries => (Text.quote key ++ ": " ++ innerText v) :: entryTexts entries

end

/-- The text of a value in a letter. -/
def text : Value → String
  | string s => s
  | v => innerText v

end Value
end FormLetter

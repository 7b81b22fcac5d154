/-
# Data, and values as data

The data that letters are filled in from, as a program describes it: a tree of numbers, texts,
wrappers, rows, records, named variants and maps.  A map is a row of keys and values that come one
at a time.

A value describes itself as data: each of its forms has a form of data of its own, and a map gives
its entries in their order, each key directly in front of its value.
-/
import FormLetter.Value.Basic

namespace FormLetter

/-! ### Data -/

mutual

/-- A description of data. -/
inductive Datum where
  /-- Nothing: an empty structure, or a part that is absent. -/
  | nothing
  /-- A truth value. -/
  | bool (b : Bool)
  /-- A whole number of any size. -/
  | int (n : Int)
  /-- A double precision number. -/
  | float (x : Binary64)
  /-- A single precision number, given by its bits. -/
  | single (bits : UInt32)
  /-- A single character. -/
  | char (c : Char)
  /-- A text. -/
  | text (s : String)
  /-- A row of bytes. -/
  | bytes (bytes : List UInt8)
  /-- Data behind a wrapper that adds nothing to it: a part that is present, or a type with a name
  of its own. -/
  | wrapped (content : Datum)
  /-- A row of items.  Their number may be announced; nothing depends on it. -/
  | seq (announced : Option Nat) (items : List Datum)
  /-- A record with named fields. -/
  | record (fields : List (String × Datum))
  /-- A variant without content. -/
  | unitVariant (variant : String)
  /-- A variant with one piece of content. -/
  | variant (variant : String) (content : Datum)
  /-- A variant with a row of items. -/
  | tupleVariant (variant : String) (items : List Datum)
  /-- A variant with named fields. -/
  | recordVariant (variant : String) (fields : List (String × Datum))
  /-- A map, as its keys and values come. -/
  | map (parts : List MapPart)
  /-- The description fails with a message of its own. -/
  | failure (message : String)

/-- A part of a map. -/
inductive MapPart where
  /-- The key of the next value. -/
  | key (key : Datum)
  /-- The value of the last key. -/
  | value (value : Datum)

end

instance : Inhabited Datum := ⟨.nothing⟩

/-! ### Values as data -/

namespace Value

mutual

/-- The data that a value is. -/
def toDatum : Value → Datum
  | none => .nothing
  | bool b => .bool b
  | int n => .int n.toInt
  | float x => .float x
  | string s => .text s
  | seq items => .seq (some items.length) (itemData items)
  | map entries => .map (entryData entries)

/-- The items of a sequence as data. -/
def itemData : List Value → List Datum
  | [] => []
  | v :: items => toDatum v :: itemData items

/-- The entries of a map as parts of a map. -/
def entryData : List (String × Value) → List MapPart
  | [] => []
  | (key, v) :: entries => .key (.text key) :: .value (toDatum v) :: entryData entries

end

end Value
end FormLetter

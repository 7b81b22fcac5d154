/-
# Values of plain types

Values of the types that every program has at hand.  Unlike data in general these are always values:
whole numbers of at most 64 bits, or 32 bits without a sign, fit, and a text needs no conversion.
-/
import FormLetter.Value.Basic

namespace FormLetter

/-- A type whose members are values. -/
class ToValue (α : Type) where
  /-- The member as a value. -/
  toValue : α → Value

export ToValue (toValue)

namespace ToValue

variable {α : Type}

instance : ToValue Value := ⟨id⟩
instance : ToValue Unit := ⟨fun _ => .none⟩
instance : ToValue Bool := ⟨.bool⟩
instance : ToValue Int64 := ⟨.int⟩
instance : ToValue Int32 := ⟨fun n => .int n.toInt64⟩
instance : ToValue Int16 := ⟨fun n => .int n.toInt64⟩
instance : ToValue Int8 := ⟨fun n => .int n.toInt64⟩
instance : ToValue UInt32 := ⟨fun n => .int (.ofNat n.toNat)⟩
instance : ToValue UInt16 := ⟨fun n => .int (.ofNat n.toNat)⟩
instance : ToValue UInt8 := ⟨fun n => .int (.ofNat n.toNat)⟩
instance : ToValue Binary64 := ⟨.float⟩
instance : ToValue Char := ⟨fun c => .string (String.singleton c)⟩
instance : ToValue String := ⟨.string⟩
instance [ToValue α] : ToValue (Option α) := ⟨fun o => o.elim .none toValue⟩
instance [ToValue α] : ToValue (List α) := ⟨fun l => .seq (l.map toValue)⟩

/-- A dictionary is a map. -/
def ofDictionary [ToValue α] (d : Dictionary α) : Value :=
  .map (d.map fun (key, v) => (key, toValue v))

end ToValue
end FormLetter

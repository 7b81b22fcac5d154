/-
# Values of data

How data becomes a value, or why it does not.  The first fault, in the order in which the data is
described, decides.

* Whole numbers keep their value, if they fit into 64 bits; single precision numbers become the
  double of the same value.
* A character is a text, bytes are a sequence of whole numbers, and wrappers vanish.
* A record is a map from the names of its fields; a variant is a map from its name to its content,
  or its name alone if it has none.
* The key of a map is a text, or a whole number or truth value, which is taken for the text of
  it.  A key is used up by the value that follows it, and a key in front of another key is
  dropped.  Where two values have the same key the later one counts.
-/
import FormLetter.Error.Cause
import FormLetter.Value.Basic
import FormLetter.Value.ToDatum

namespace FormLetter
namespace Value

/-- A whole number as a value, if it fits into 64 bits. -/
def ofInt (n : Int) : Except Cause Value :=
  if Int64.minValue.toInt ≤ n ∧ n ≤ Int64.maxValue.toInt then .ok (int (.ofInt n))
  else .error (.integerOutOfRange n)

/-- A value as the key of a map. -/
def key : Value → Except Cause String
  | string s => .ok s
  | int n => .ok (text (int n))
  | bool b => .ok (text (bool b))
  | v => .error (.keyKind v.kind)

mutual

/-- The value of data. -/
def ofDatum : Datum → Except Cause Value
  | .nothing => .ok none
  | .bool b => .ok (bool b)
  | .int n => ofInt n
  | .float x => .ok (float x)
  | .single bits => .ok (float (.ofBinary32 bits))
  | .char c => .ok (string (String.singleton c))
  | .text s => .ok (string s)
  | .bytes bytes => .ok (seq (bytes.map fun b => int (.ofNat b.toNat)))
  | .wrapped content => ofDatum content
  | .seq _ items => (ofItems items).map seq
  | .record fields => (ofFields [] fields).map map
  | .unitVariant variant => .ok (string variant)
  | .variant variant content => (ofDatum content).map fun v => map [(variant, v)]
  | .tupleVariant variant items => (ofItems items).map fun vs => map [(variant, seq vs)]
  | .recordVariant variant fields =>
    (ofFields [] fields).map fun entries => map [(variant, map entries)]
  | .map parts => (ofParts [] Option.none parts).map map
  | .failure message => .error (.failure message)

/-- The values of a row of data. -/
def ofItems : List Datum → Except Cause (List Value)
  | [] => .ok []
  | d :: items =>
    match ofDatum d with
    | .error cause => .error cause
    | .ok v => (ofItems items).map (v :: ·)

/-- The entries of a record, on top of those that are there already. -/
def ofFields (entries : Dictionary Value) : List (String × Datum) → Except Cause (Dictionary Value)
  | [] => .ok entries
  | (name, d) :: fields =>
    match ofDatum d with
    | .error cause => .error cause
    | .ok v => ofFields (Dictionary.insert name v entries) fields

/-- The entries of a map, on top of those that are there already.  `pending` is the key of the next
value. -/
def ofParts (entries : Dictionary Value) (pending : Option String) :
    List MapPart → Except Cause (Dictionary Value)
  | [] => .ok entries
  | .key d :: parts =>
    match ofDatum d with
    | .error cause => .error cause
    | .ok v =>
      match key v with
      | .error cause => .error cause
      | .ok k => ofParts entries (some k) parts
  | .value d :: parts =>
    match ofDatum d with
    | .error cause => .error cause
    | .ok v =>
      match pending with
      | Option.none => .error .keyMissing
      | some k => ofParts (Dictionary.insert k v entries) Option.none parts

end

end Value
end FormLetter

/-
# Data piece by piece

The value of data comes about piece by piece: the computation for the first piece goes first, and
the others go on from there (`ofItems_cons`, `ofParts_key`).  Of the pieces of a map the keys have a
text of their own, whole numbers and truth values being written out (`Datum.keyText?`); other data is
no key, and its form says why (`Datum.nonKey?`).  Both can be told without the value of the data
(`key_cases`).
-/
import FormLetter.Proofs.Value.Ordered

namespace FormLetter

namespace Value

/-! ### One piece after the other -/

section

variable {α β : Type} {x : Except Cause α} {b : β}

lemma map_eq_ok_iff {f : α → β} :
    x.map f = .ok b ↔ ∃ a, x = .ok a ∧ f a = b := by
  cases x with
  | error cause => simp [Except.map]
  | ok a => simp [Except.map]

lemma bind_eq_ok_iff {f : α → Except Cause β} :
    x.bind f = .ok b ↔ ∃ a, x = .ok a ∧ f a = .ok b := by
  cases x with
  | error cause => simp [Except.bind]
  | ok a => simp [Except.bind]

end

section

variable (d : Datum) (items : List Datum) (name : String) (fields : List (String × Datum))
  (entries : Dictionary Value) (pending : Option String) (parts : List MapPart)

lemma ofItems_cons :
    ofItems (d :: items) = (ofDatum d).bind fun v => (ofItems items).map (v :: ·) := by
  rw [ofItems]
  cases ofDatum d <;> rfl

lemma ofFields_cons :
    ofFields entries ((name, d) :: fields) =
      (ofDatum d).bind fun v => ofFields (Dictionary.insert name v entries) fields := by
  rw [ofFields]
  cases ofDatum d <;> rfl

lemma ofParts_key :
    ofParts entries pending (.key d :: parts) =
      (ofDatum d).bind fun v => (key v).bind fun text => ofParts entries (some text) parts := by
  rw [ofParts]
  cases ofDatum d with
  | error cause => rfl
  | ok v => cases hkey : key v <;> simp [Except.bind, hkey]

lemma ofParts_value :
    ofParts entries pending (.value d :: parts) =
      (ofDatum d).bind fun v => pending.elim (.error .keyMissing) fun text =>
        ofParts (Dictionary.insert text v entries) Option.none parts := by
  rw [ofParts]
  cases ofDatum d with
  | error cause => rfl
  | ok v => cases pending <;> rfl

end

/-! ### Whole numbers -/

variable {d : Datum} {v : Value}

/-- Does the whole number fit into 64 bits? -/
def fits (n : Int) : Bool := decide (-9223372036854775808 ≤ n ∧ n ≤ 9223372036854775807)

lemma ofInt_of_fits {n : Int} (h : fits n = true) : ofInt n = .ok (int (.ofInt n)) := by
  have hbounds : -9223372036854775808 ≤ n ∧ n ≤ 9223372036854775807 := of_decide_eq_true h
  rw [ofInt, if_pos]
  exact hbounds

lemma ofInt_of_not_fits {n : Int} (h : fits n = false) :
    ofInt n = .error (.integerOutOfRange n) := by
  have hbounds : ¬ (-9223372036854775808 ≤ n ∧ n ≤ 9223372036854775807) := of_decide_eq_false h
  rw [ofInt, if_neg]
  exact hbounds

/-- A whole number that becomes a value keeps its value. -/
lemma exists_of_ofInt {n : Int} (h : ofInt n = .ok v) : ∃ m : Int64, v = int m ∧ m.toInt = n := by
  cases hfits : fits n with
  | false =>
    rw [ofInt_of_not_fits hfits] at h
    cases h
  | true =>
    rw [ofInt_of_fits hfits] at h
    obtain ⟨hlow, hhigh⟩ : -9223372036854775808 ≤ n ∧ n ≤ 9223372036854775807 :=
      of_decide_eq_true hfits
    have hkept : (Int64.ofInt n).toInt = n := Int64.toInt_ofInt_of_le (by omega) (by omega)
    exact ⟨_, (Except.ok.inj h).symm, hkept⟩

end Value

/-! ### Keys -/

namespace Datum

/-- The data without the wrappers around it. -/
def unwrapped : Datum → Datum
  | wrapped content => content.unwrapped
  | d => d

/-- The text of the data as a key.  Whole numbers and truth values are written out. -/
def keyText? (d : Datum) : Option String :=
  match d.unwrapped with
  | text s => some s
  | char c => some (String.singleton c)
  | unitVariant name => some name
  | int n => some (toString n)
  | bool true => some "true"
  | bool false => some "false"
  | _ => none

/-- The form of data that is no key.  A failure is of no form: it is a fault of its own. -/
def nonKey? (d : Datum) : Option Value.Kind :=
  match d.unwrapped with
  | nothing => some .none
  | float _ => some .number
  | single _ => some .number
  | bytes _ => some .sequence
  | seq _ _ => some .sequence
  | record _ => some .map
  | variant _ _ => some .map
  | tupleVariant _ _ => some .map
  | recordVariant _ _ => some .map
  | map _ => some .map
  | _ => none

end Datum

namespace Value

/-- What becomes of a value as a key can be told from the data. -/
theorem key_cases (d : Datum) : ∀ v, ofDatum d = .ok v →
    (∃ text, d.keyText? = some text ∧ d.nonKey? = Option.none ∧ Value.key v = .ok text) ∨
      ∃ kind, d.keyText? = Option.none ∧ d.nonKey? = some kind ∧
        Value.key v = .error (.keyKind kind) := by
  cases d with
  | wrapped content => exact key_cases content
  | text s =>
    intro v h
    obtain rfl := Except.ok.inj h
    exact Or.inl ⟨s, rfl, rfl, rfl⟩
  | char c =>
    intro v h
    obtain rfl := Except.ok.inj h
    exact Or.inl ⟨_, rfl, rfl, rfl⟩
  | unitVariant variant =>
    intro v h
    obtain rfl := Except.ok.inj h
    exact Or.inl ⟨variant, rfl, rfl, rfl⟩
  | bool b =>
    intro v h
    obtain rfl := Except.ok.inj h
    cases b
    · exact Or.inl ⟨"false", rfl, rfl, rfl⟩
    · exact Or.inl ⟨"true", rfl, rfl, rfl⟩
  | int n =>
    intro v h
    obtain ⟨m, rfl, hm⟩ := exists_of_ofInt (by rwa [ofDatum] at h)
    refine Or.inl ⟨toString n, rfl, rfl, ?_⟩
    rw [Value.key, text, innerText, hm]
    simp
  | failure message =>
    intro v h
    cases h
  | nothing =>
    intro v h
    obtain rfl := Except.ok.inj h
    exact Or.inr ⟨.none, rfl, rfl, rfl⟩
  | float x =>
    intro v h
    obtain rfl := Except.ok.inj h
    exact Or.inr ⟨.number, rfl, rfl, rfl⟩
  | single bits =>
    intro v h
    obtain rfl := Except.ok.inj h
    exact Or.inr ⟨.number, rfl, rfl, rfl⟩
  | bytes bytes =>
    intro v h
    obtain rfl := Except.ok.inj h
    exact Or.inr ⟨.sequence, rfl, rfl, rfl⟩
  | seq announced items =>
    intro v h
    obtain ⟨vs, -, rfl⟩ := map_eq_ok_iff.1 h
    exact Or.inr ⟨.sequence, rfl, rfl, rfl⟩
  | record fields =>
    intro v h
    obtain ⟨entries, -, rfl⟩ := map_eq_ok_iff.1 h
    exact Or.inr ⟨.map, rfl, rfl, rfl⟩
  | variant variant content =>
    intro v h
    obtain ⟨w, -, rfl⟩ := map_eq_ok_iff.1 h
    exact Or.inr ⟨.map, rfl, rfl, rfl⟩
  | tupleVariant variant items =>
    intro v h
    obtain ⟨vs, -, rfl⟩ := map_eq_ok_iff.1 h
    exact Or.inr ⟨.map, rfl, rfl, rfl⟩
  | recordVariant variant fields =>
    intro v h
    obtain ⟨entries, -, rfl⟩ := map_eq_ok_iff.1 h
    exact Or.inr ⟨.map, rfl, rfl, rfl⟩
  | map parts =>
    intro v h
    obtain ⟨entries, -, rfl⟩ := map_eq_ok_iff.1 h
    exact Or.inr ⟨.map, rfl, rfl, rfl⟩

/-- The data becomes a key with the given text. -/
def IsKey (d : Datum) (text : String) : Prop := (∃ v, ofDatum d = .ok v) ∧ d.keyText? = some text

end Value
end FormLetter

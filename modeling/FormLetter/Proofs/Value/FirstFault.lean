/-
# The value of data or its first fault

Data that cannot become a value is reported by its first fault, and by that alone.  Otherwise a part
of the data that no later part replaces is found in the value at the place that it has in the data
(`exists_at`), so whole numbers are there exactly as they were (`conversion_first_fault`).
-/
import FormLetter.Letter
import FormLetter.Proofs.Value.Entries
import FormLetter.Proofs.Value.Faults

namespace FormLetter

namespace Value

/-! ### Places -/

/-- A way from a value to a part of it. -/
inductive Branch where
  /-- To an item of a sequence. -/
  | item (i : Nat)
  /-- To the value under a key of a map. -/
  | under (key : String)

/-- The part of a value that a branch leads to. -/
def child? (v : Value) : Branch → Option Value
  | .item i => v.items?.bind fun items => items[i]?
  | .under key => v.get? key

/-- The part of a value that branches lead to, one after the other. -/
def at? : List Branch → Value → Option Value
  | [], v => some v
  | branch :: path, v => (v.child? branch).bind (at? path)

end Value

open Value (Branch LastEntry)

/-- The data has a part at the given place of its value.  Values that are replaced by a later one
have no place, and wrappers are in the place of what is inside them. -/
inductive Datum.At : Datum → List Branch → Datum → Prop
  | here (d : Datum) : At d [] d
  | wrapped {content part : Datum} {path : List Branch} (h : At content path part) :
      At (.wrapped content) path part
  | byte {bytes : List UInt8} {i : Nat} {b : UInt8} (hi : bytes[i]? = some b) :
      At (.bytes bytes) [.item i] (.int b.toNat)
  | item {announced : Option Nat} {items : List Datum} {i : Nat} {item part : Datum}
      {path : List Branch} (hi : items[i]? = some item) (h : At item path part) :
      At (.seq announced items) (.item i :: path) part
  | entry {parts : List MapPart} {text : String} {content part : Datum} {path : List Branch}
      (hlast : LastEntry (MapPart.entries parts) text content) (h : At content path part) :
      At (.map parts) (.under text :: path) part
  | field {fields : List (String × Datum)} {name : String} {content part : Datum}
      {path : List Branch}
      (hlast : LastEntry (fields.map fun field => (.text field.1, field.2)) name content)
      (h : At content path part) : At (.record fields) (.under name :: path) part
  | content {variant : String} {content part : Datum} {path : List Branch}
      (h : At content path part) : At (.variant variant content) (.under variant :: path) part
  | tuple {variant : String} {items : List Datum} {part : Datum} {path : List Branch}
      (h : At (.seq none items) path part) :
      At (.tupleVariant variant items) (.under variant :: path) part
  | fields {variant : String} {fields : List (String × Datum)} {part : Datum} {path : List Branch}
      (h : At (.record fields) path part) :
      At (.recordVariant variant fields) (.under variant :: path) part

namespace Value

lemma exists_of_ofItems {items : List Datum} {vs : List Value} {i : Nat} {d : Datum}
    (h : ofItems items = .ok vs) (hi : items[i]? = some d) :
    ∃ v, vs[i]? = some v ∧ ofDatum d = .ok v := by
  induction items generalizing vs i with
  | nil => simp at hi
  | cons first items ih =>
    rw [ofItems_cons] at h
    obtain ⟨w, hfirst, h⟩ := bind_eq_ok_iff.1 h
    obtain ⟨ws, hws, rfl⟩ := map_eq_ok_iff.1 h
    cases i with
    | zero =>
      obtain rfl := Option.some.inj hi
      exact ⟨w, rfl, hfirst⟩
    | succ i =>
      obtain ⟨v, hv, hd⟩ := ih hws hi
      exact ⟨v, hv, hd⟩

/-- A part of the data is found in the value, at its place. -/
theorem exists_at {d part : Datum} {path : List Branch} (hat : d.At path part) :
    ∀ v, ofDatum d = .ok v → ∃ w, v.at? path = some w ∧ ofDatum part = .ok w := by
  induction hat with
  | here d => exact fun v h => ⟨v, rfl, h⟩
  | wrapped _ ih => exact ih
  | @byte bytes i b hi =>
    intro v h
    obtain rfl := Except.ok.inj h
    have hfits : fits b.toNat = true := by
      have hb := b.toNat_lt
      exact decide_eq_true (by omega)
    refine ⟨int (.ofNat b.toNat), ?_, ofInt_of_fits hfits⟩
    simp [at?, child?, items?, hi]
  | item hi _ ih =>
    intro v h
    obtain ⟨vs, hvs, rfl⟩ := map_eq_ok_iff.1 h
    obtain ⟨w, hw, hitem⟩ := exists_of_ofItems hvs hi
    obtain ⟨u, hu, hpart⟩ := ih w hitem
    refine ⟨u, ?_, hpart⟩
    simp [at?, child?, items?, hw, hu]
  | entry hlast _ ih =>
    intro v h
    obtain ⟨entries, rfl, hentries⟩ := lastCounts_map h
    obtain ⟨w, hw, hcontent⟩ := hentries.exists_value hlast
    obtain ⟨u, hu, hpart⟩ := ih w hcontent
    refine ⟨u, ?_, hpart⟩
    simp [at?, child?, get?, hw, hu]
  | field hlast _ ih =>
    intro v h
    obtain ⟨entries, rfl, hentries⟩ := lastCounts_record h
    obtain ⟨w, hw, hcontent⟩ := hentries.exists_value hlast
    obtain ⟨u, hu, hpart⟩ := ih w hcontent
    refine ⟨u, ?_, hpart⟩
    simp [at?, child?, get?, hw, hu]
  | content _ ih =>
    intro v h
    obtain ⟨w, hw, rfl⟩ := map_eq_ok_iff.1 h
    obtain ⟨u, hu, hpart⟩ := ih w hw
    refine ⟨u, ?_, hpart⟩
    simp [at?, child?, get?, Dictionary.get?, hu]
  | tuple _ ih =>
    intro v h
    obtain ⟨vs, hvs, rfl⟩ := map_eq_ok_iff.1 h
    obtain ⟨u, hu, hpart⟩ := ih (seq vs) (map_eq_ok_iff.2 ⟨vs, hvs, rfl⟩)
    refine ⟨u, ?_, hpart⟩
    simp [at?, child?, get?, Dictionary.get?, hu]
  | fields _ ih =>
    intro v h
    obtain ⟨entries, hentries, rfl⟩ := map_eq_ok_iff.1 h
    obtain ⟨u, hu, hpart⟩ := ih (map entries) (map_eq_ok_iff.2 ⟨entries, hentries, rfl⟩)
    refine ⟨u, ?_, hpart⟩
    simp [at?, child?, get?, Dictionary.get?, hu]

/-- **The first fault.**  Data has no value just in case some part of it is a whole number that does
not fit, a failure, or a map with something that is no key or with a value that no key is pending
for.  The error is the first fault, as bad data without a place.  Where there is a value it has each
whole number, exactly as it was, in the place that the number has in the data. -/
theorem conversion_first_fault (d : Datum) :
    ((∃ e, ofData d = .error e) ↔ ∃ part : Datum, part.Occurs d ∧ part.Faulty) ∧
    (∀ e, ofData d = .error e ↔
      ∃ cause, d.faults.head? = some cause ∧ e = { cause, location := Option.none }) ∧
    (∀ e, ofData d = .error e → e.kind = .badData) ∧
    ∀ v, ofData d = .ok v → ∀ path n, d.At path (.int n) →
      ∃ m : Int64, v.at? path = some (int m) ∧ m.toInt = n := by
  have hfirst := failsFirst_ofDatum d
  have herror : ∀ e, ofData d = .error e ↔ ∃ cause, ofDatum d = .error cause ∧ e = { cause } := by
    intro e
    rw [ofData]
    cases ofDatum d with
    | error cause => simp [Except.mapError, eq_comm]
    | ok v => simp [Except.mapError]
  have hcause : ∀ cause, ofDatum d = .error cause ↔ d.faults.head? = some cause := by
    intro cause
    cases h : ofDatum d with
    | error first =>
      rw [h] at hfirst
      have hhead : d.faults.head? = some first := hfirst
      rw [hhead, Except.error.injEq, Option.some.injEq]
    | ok v =>
      rw [h] at hfirst
      have hnil : d.faults = [] := hfirst
      simp [hnil]
  refine ⟨?_, fun e => ?_, fun e he => ?_, fun v hv path n hat => ?_⟩
  · have hparts : d.faults ≠ [] ↔ ∃ part : Datum, part.Occurs d ∧ part.Faulty := by
      rw [ne_eq, Datum.faults_eq_nil_iff]
      push Not
      rfl
    rw [← hparts]
    constructor
    · rintro ⟨e, he⟩ hnil
      obtain ⟨cause, h, -⟩ := (herror e).1 he
      rw [hcause, hnil] at h
      cases h
    · intro hne
      obtain ⟨cause, rest, hfaults⟩ := List.exists_cons_of_ne_nil hne
      exact ⟨{ cause }, (herror _).2 ⟨cause, (hcause cause).2 (by rw [hfaults]; rfl), rfl⟩⟩
  · simp only [herror, hcause]
  · obtain ⟨cause, h, rfl⟩ := (herror e).1 he
    exact kind_of_ofDatum h
  · have hvalue : ofDatum d = .ok v := by
      rw [ofData] at hv
      cases h : ofDatum d with
      | error cause =>
        rw [h] at hv
        cases hv
      | ok w =>
        rw [h] at hv
        exact congrArg _ (Except.ok.inj hv)
    obtain ⟨w, hw, hpart⟩ := exists_at hat v hvalue
    obtain ⟨m, rfl, hm⟩ := exists_of_ofInt hpart
    exact ⟨m, hw, hm⟩

/-- A record with a number that is too large, behind which there is a map with a number with a
fraction as a key and a value without a key; and a record in which the smallest number of all stands
under the key one, in the second of two fields of the same name. -/
theorem conversion_first_fault_record :
    let refused : Datum := .record
      [("a", .wrapped (.int 9223372036854775808)),
        ("b", .map [.key (.single 0), .value .nothing, .value .nothing])]
    let least : Datum := .record
      [("a", .nothing),
        ("a", .map [.key (.int 1), .value (.wrapped (.int (-9223372036854775808)))])]
    let v : Value := map [("a", map [("1", int Int64.minValue)])]
    refused.faults = [.integerOutOfRange 9223372036854775808, .keyKind .number, .keyMissing] ∧
      ofData refused = .error { cause := .integerOutOfRange 9223372036854775808 } ∧
      ofData least = .ok v ∧
      ∃ m : Int64, v.at? [.under "a", .under "1"] = some (int m) ∧
        m.toInt = -9223372036854775808 := by
  intro refused least v
  have hfaults : refused.faults =
    [.integerOutOfRange 9223372036854775808, .keyKind .number, .keyMissing] := rfl
  have hrefused := ((conversion_first_fault refused).2.1 _).2 ⟨_, congrArg List.head? hfaults, rfl⟩
  have hleast : ofData least = .ok v := rfl
  have hat : least.At [.under "a", .under "1"] (.int (-9223372036854775808)) := by
    refine .field ⟨[(.text "a", .nothing)], .text "a", [], rfl, rfl, by simp⟩ ?_
    exact .entry ⟨[], .int 1, [], rfl, rfl, by simp⟩ (.wrapped (.here _))
  exact ⟨hfaults, hrefused, hleast, (conversion_first_fault least).2.2.2 v hleast _ _ hat⟩

end Value
end FormLetter

/-
# Values as data

A value describes itself as data, and the value of that data is the value itself, as long as its maps
are dictionaries (`ofDatum_toDatum`).  Since all values of data are of this kind, data can be made a
value ahead of time: a letter that is filled in with the value is the letter that is filled in with
the data (`conversion_idempotent`).
-/
import FormLetter.Environment
import FormLetter.Proofs.Value.Ordered
import FormLetter.Value.ToDatum

namespace FormLetter
namespace Value

lemma ofInt_toInt (n : Int64) : ofInt n.toInt = .ok (int n) := by
  rw [ofInt, if_pos ⟨Int64.minValue_le_toInt n, Int64.toInt_le n⟩, Int64.ofInt_toInt]

mutual

/-- The data that an ordered value is has that value. -/
theorem ofDatum_toDatum {v : Value} (h : v.Ordered) : ofDatum v.toDatum = .ok v := by
  cases h with
  | none => rfl
  | bool b => rfl
  | int n => exact ofInt_toInt n
  | float x => rfl
  | string s => rfl
  | seq hitems => rw [toDatum, ofDatum, ofItems_itemData hitems, Except.map]
  | map hascending hvalues =>
    rw [toDatum, ofDatum, ofParts_entryData [] hascending hvalues, Except.map]
    rfl

lemma ofItems_itemData {items : List Value} (h : ∀ v ∈ items, v.Ordered) :
    ofItems (itemData items) = .ok items := by
  match items with
  | [] => rfl
  | v :: items =>
    obtain ⟨hv, hitems⟩ := List.forall_mem_cons.1 h
    rw [itemData, ofItems, ofDatum_toDatum hv, ofItems_itemData hitems]
    rfl

/-- The entries come in their order, so each is inserted behind those before it. -/
lemma ofParts_entryData (before : Dictionary Value) {entries : Dictionary Value}
    (hascending : Dictionary.Ascending (before ++ entries))
    (hvalues : ∀ entry ∈ entries, Ordered entry.2) :
    ofParts before Option.none (entryData entries) = .ok (before ++ entries) := by
  match entries with
  | [] => rw [entryData, ofParts, List.append_nil]
  | (k, v) :: entries =>
    obtain ⟨hv, hentries⟩ := List.forall_mem_cons.1 hvalues
    have hbehind : ∀ l ∈ Dictionary.keys before, Dictionary.before l k = true := by
      rw [Dictionary.Ascending, Dictionary.keys, List.map_append,
        List.pairwise_append] at hascending
      exact fun l hl => hascending.2.2 l hl k List.mem_cons_self
    have hassoc : before ++ (k, v) :: entries = before ++ [(k, v)] ++ entries := by simp
    rw [hassoc] at hascending ⊢
    simp only [entryData, ofParts, ofDatum, key, ofDatum_toDatum hv,
      Dictionary.insert_of_forall_before hbehind]
    exact ofParts_entryData _ hascending hentries

end

/-- **Values as data.**  A value is the value of its own data exactly if its maps are dictionaries.
All data that has a value has one of this kind, and then it makes no difference whether a letter is
filled in with the data or with its value. -/
theorem conversion_idempotent :
    (∀ v : Value, ofDatum v.toDatum = .ok v ↔ v.Ordered) ∧
    ∀ (data : Datum) (v : Value), ofDatum data = .ok v →
      v.Ordered ∧
      (∀ env : Environment, (∀ letter, env.render letter v.toDatum = env.render letter data) ∧
        ∀ source, env.renderText source v.toDatum = env.renderText source data) ∧
      ∀ blocks, FormLetter.render blocks v.toDatum = FormLetter.render blocks data := by
  constructor
  · intro v
    exact ⟨ordered_of_ofDatum, ofDatum_toDatum⟩
  · intro data v h
    have hv : v.Ordered := ordered_of_ofDatum h
    have hdata : ofData v.toDatum = ofData data := by
      rw [ofData, ofData, h, ofDatum_toDatum hv]
    refine ⟨hv, ?_, ?_⟩
    · intro env
      constructor
      · intro letter
        rw [Environment.render, Environment.render, hdata]
      · intro source
        rw [Environment.renderText, Environment.renderText, hdata]
    · intro blocks
      rw [FormLetter.render, FormLetter.render, hdata]

/-- A record whose fields come in the order `b`, `a`, with something that is not a number, the
negative infinity, and a map under the key one.  Its value has the fields in the order `a`, `b`, and
the number has become the text `1`. -/
theorem conversion_idempotent_record :
    let data : Datum := .record
      [("b", .seq (some 2) [.float ⟨0x7FF8000000000001⟩, .float ⟨0xFFF0000000000000⟩]),
        ("a", .map [.key (.int 1), .value (.text "x")])]
    let v : Value := .map
      [("a", .map [("1", .string "x")]),
        ("b", .seq [.float ⟨0x7FF8000000000001⟩, .float ⟨0xFFF0000000000000⟩])]
    ofDatum data = .ok v ∧ v.Ordered ∧ ofDatum v.toDatum = .ok v ∧
      ∀ (env : Environment) (source : String),
        env.renderText source v.toDatum = env.renderText source data := by
  intro data v
  have h : ofDatum data = .ok v := rfl
  obtain ⟨hv, henv, -⟩ := conversion_idempotent.2 data v h
  exact ⟨h, hv, (conversion_idempotent.1 v).2 hv, fun env => (henv env).2⟩

end Value
end FormLetter

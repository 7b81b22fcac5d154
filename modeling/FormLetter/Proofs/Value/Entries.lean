/-
# The entries of a map

A map comes as a row of keys and values.  A key is pending until the value directly behind it uses
it up; a key in front of another key is dropped, and so is one behind which nothing comes.  What is
left are the entries, each a value with the key directly in front of it (`MapPart.entries`).

The map that comes out of this binds exactly the texts of the keys of the entries, each to the value
of the last entry with that text (`lastCounts_map`).  A record is the map with the names of its
fields as keys (`ofDatum_record`), so the same holds for it.
-/
import Mathlib.Data.List.Forall2
import FormLetter.Proofs.Value.Pieces

namespace FormLetter
namespace Value

/-! ### Keys and values one at a time -/

variable {d : Datum} {v : Value}
variable {entries result : Dictionary Value} {pending : Option String} {parts : List MapPart}

lemma ofParts_key_eq_ok_iff :
    ofParts entries pending (.key d :: parts) = .ok result ↔
      ∃ text, IsKey d text ∧ ofParts entries (some text) parts = .ok result := by
  simp only [ofParts_key, bind_eq_ok_iff]
  constructor
  · rintro ⟨v, h, text, hkey, hrest⟩
    rcases key_cases d v h with ⟨text', htext, -, hkey'⟩ | ⟨kind, -, -, hkey'⟩
    · obtain rfl := Except.ok.inj (hkey.symm.trans hkey')
      exact ⟨text, ⟨⟨v, h⟩, htext⟩, hrest⟩
    · cases hkey.symm.trans hkey'
  · rintro ⟨text, ⟨⟨v, h⟩, htext⟩, hrest⟩
    rcases key_cases d v h with ⟨text', htext', -, hkey⟩ | ⟨kind, hnone, -, -⟩
    · obtain rfl := Option.some.inj (htext.symm.trans htext')
      exact ⟨v, h, text, hkey, hrest⟩
    · cases htext.symm.trans hnone

lemma ofParts_value_eq_ok_iff :
    ofParts entries pending (.value d :: parts) = .ok result ↔
      ∃ v text, ofDatum d = .ok v ∧ pending = some text ∧
        ofParts (Dictionary.insert text v entries) Option.none parts = .ok result := by
  rw [ofParts_value, bind_eq_ok_iff]
  cases pending <;> simp

/-- Keys with nothing behind them leave no entry. -/
lemma ofParts_left_eq_ok_iff {left : List Datum} :
    ofParts entries pending (left.map .key) = .ok result ↔
      (∀ k ∈ left, ∃ text, IsKey k text) ∧ result = entries := by
  induction left generalizing pending with
  | nil => simp [ofParts, eq_comm]
  | cons k left ih =>
    rw [List.map_cons, ofParts_key_eq_ok_iff, List.forall_mem_cons]
    simp only [ih]
    constructor
    · rintro ⟨text, hk, hleft, hresult⟩
      exact ⟨⟨⟨text, hk⟩, hleft⟩, hresult⟩
    · rintro ⟨⟨⟨text, hk⟩, hleft⟩, hresult⟩
      exact ⟨text, hk, hleft, hresult⟩

/-- Keys in front of another key leave no entry. -/
lemma ofParts_dropped_eq_ok_iff {dropped : List Datum} :
    ofParts entries pending (dropped.map .key ++ .key d :: parts) = .ok result ↔
      (∀ k ∈ dropped, ∃ text, IsKey k text) ∧
        ofParts entries Option.none (.key d :: parts) = .ok result := by
  induction dropped generalizing pending with
  | nil => simp [ofParts_key_eq_ok_iff]
  | cons k dropped ih =>
    rw [List.map_cons, List.cons_append, ofParts_key_eq_ok_iff, List.forall_mem_cons]
    simp only [ih]
    constructor
    · rintro ⟨text, hk, hdropped, hrest⟩
      exact ⟨⟨⟨text, hk⟩, hdropped⟩, hrest⟩
    · rintro ⟨⟨⟨text, hk⟩, hdropped⟩, hrest⟩
      exact ⟨text, hk, hdropped, hrest⟩

end Value

/-! ### Rows of entries -/

namespace MapPart

/-- The values that come directly behind a key, each with that key. -/
def entries : List MapPart → List (Datum × Datum)
  | key k :: value d :: parts => (k, d) :: entries parts
  | key _ :: parts => entries parts
  | value _ :: parts => entries parts
  | [] => []

/-- What comes up to a value: keys that are dropped, its own key, and the value itself. -/
structure Entry where
  dropped : List Datum
  key : Datum
  value : Datum

namespace Entry

/-- The parts of the map that the entry takes up. -/
def parts (e : Entry) : List MapPart := e.dropped.map .key ++ [.key e.key, .value e.value]

/-- The value of the entry with its key. -/
def pair (e : Entry) : Datum × Datum := (e.key, e.value)

/-- What the entry binds. -/
structure Binds (e : Entry) (binding : String × Value) : Prop where
  dropped : ∀ k ∈ e.dropped, ∃ text, Value.IsKey k text
  key : Value.IsKey e.key binding.1
  value : Value.ofDatum e.value = .ok binding.2

end Entry

/-- The parts of a row of entries and of keys behind it. -/
def ofRow (row : List Entry) (left : List Datum) : List MapPart :=
  row.flatMap Entry.parts ++ left.map .key

lemma ofRow_cons (e : Entry) (row : List Entry) (left : List Datum) :
    ofRow (e :: row) left =
      e.dropped.map .key ++ .key e.key :: .value e.value :: ofRow row left := by
  simp [ofRow, Entry.parts]

lemma entries_left (left : List Datum) : entries (left.map .key) = [] := by
  induction left with
  | nil => rfl
  | cons k left ih =>
    cases left with
    | nil => rfl
    | cons next left => exact ih

lemma entries_dropped (dropped : List Datum) (k : Datum) (parts : List MapPart) :
    entries (dropped.map .key ++ .key k :: parts) = entries (.key k :: parts) := by
  induction dropped with
  | nil => rfl
  | cons x dropped ih =>
    cases dropped with
    | nil => rfl
    | cons next dropped => exact ih

lemma entries_ofRow (row : List Entry) (left : List Datum) :
    entries (ofRow row left) = row.map Entry.pair := by
  induction row with
  | nil => exact entries_left left
  | cons e row ih => rw [ofRow_cons, entries_dropped, entries, ih, List.map_cons, Entry.pair]

end MapPart

namespace Value

open MapPart (Entry ofRow ofRow_cons)

variable {row : List Entry} {left : List Datum}

/-- A row of entries becomes a map if each of them has a binding, and the bindings come into the map
one after the other. -/
theorem ofParts_ofRow_eq_ok_iff :
    ofParts entries Option.none (ofRow row left) = .ok result ↔
      (∀ k ∈ left, ∃ text, IsKey k text) ∧
        ∃ bindings, List.Forall₂ Entry.Binds row bindings ∧
          result = Dictionary.extend bindings entries := by
  induction row generalizing entries with
  | nil =>
    have hnil : ofRow [] left = left.map .key := rfl
    rw [hnil, ofParts_left_eq_ok_iff]
    simp [Dictionary.extend]
  | cons e row ih =>
    rw [ofRow_cons, ofParts_dropped_eq_ok_iff, ofParts_key_eq_ok_iff]
    simp only [ofParts_value_eq_ok_iff, ih]
    constructor
    · rintro ⟨hdropped, text, hkey, v, _, hvalue, ⟨rfl⟩, hleft, bindings, hbindings, rfl⟩
      exact ⟨hleft, (text, v) :: bindings, .cons ⟨hdropped, hkey, hvalue⟩ hbindings, rfl⟩
    · rintro ⟨hleft, bindings, hbindings, rfl⟩
      obtain ⟨⟨text, v⟩, bindings, he, hrow, rfl⟩ := List.forall₂_cons_left_iff.1 hbindings
      exact ⟨he.dropped, text, he.key, v, text, he.value, rfl, hleft, bindings, hrow, rfl⟩

/-- All that becomes a map is a row of entries and of keys behind it. -/
theorem exists_ofRow (h : ofParts entries Option.none parts = .ok result) :
    ∃ row left, parts = ofRow row left := by
  induction parts using MapPart.entries.induct generalizing entries with
  | case1 k d parts ih =>
    obtain ⟨text, -, h⟩ := ofParts_key_eq_ok_iff.1 h
    obtain ⟨v, text, -, -, h⟩ := ofParts_value_eq_ok_iff.1 h
    obtain ⟨row, left, rfl⟩ := ih h
    exact ⟨⟨[], k, d⟩ :: row, left, (ofRow_cons ⟨[], k, d⟩ row left).symm⟩
  | case2 k parts hvalue ih =>
    obtain ⟨text, -, h⟩ := ofParts_key_eq_ok_iff.1 h
    -- the key is dropped, so what follows does not depend on it
    have hrest : ofParts entries Option.none parts = .ok result := by
      cases parts with
      | nil => exact h
      | cons part parts =>
        cases part with
        | key k' =>
          rw [ofParts_key_eq_ok_iff] at h ⊢
          exact h
        | value d => exact absurd rfl (hvalue d parts)
    obtain ⟨row, left, rfl⟩ := ih hrest
    cases row with
    | nil => exact ⟨[], k :: left, rfl⟩
    | cons e row =>
      refine ⟨⟨k :: e.dropped, e.key, e.value⟩ :: row, left, ?_⟩
      rw [ofRow_cons, ofRow_cons]
      rfl
  | case3 d parts ih =>
    obtain ⟨v, text, -, hpending, -⟩ := ofParts_value_eq_ok_iff.1 h
    cases hpending
  | case4 => exact ⟨[], [], rfl⟩

/-! ### The last value counts -/

/-- The data is the value of the last entry whose key has the given text. -/
def LastEntry (row : List (Datum × Datum)) (text : String) (d : Datum) : Prop :=
  ∃ before k after, row = before ++ (k, d) :: after ∧ k.keyText? = some text ∧
    ∀ entry ∈ after, entry.1.keyText? ≠ some text

lemma lastEntry_cons {first : Datum × Datum} {rest : List (Datum × Datum)} {text : String} :
    LastEntry (first :: rest) text d ↔
      LastEntry rest text d ∨ first.1.keyText? = some text ∧ d = first.2 ∧
        ∀ entry ∈ rest, entry.1.keyText? ≠ some text := by
  constructor
  · rintro ⟨before, k, after, hrow, hk, hafter⟩
    cases before with
    | nil =>
      obtain ⟨rfl, rfl⟩ := List.cons.inj hrow
      exact Or.inr ⟨hk, rfl, hafter⟩
    | cons entry before =>
      obtain ⟨rfl, rfl⟩ := List.cons.inj hrow
      exact Or.inl ⟨before, k, after, rfl, hk, hafter⟩
  · rintro (⟨before, k, after, rfl, hk, hafter⟩ | ⟨hk, rfl, hrest⟩)
    · exact ⟨first :: before, k, after, rfl, hk, hafter⟩
    · exact ⟨[], first.1, rest, rfl, hk, hrest⟩

lemma exists_lastEntry_iff {row : List (Datum × Datum)} {text : String} :
    (∃ d, LastEntry row text d) ↔ ∃ entry ∈ row, entry.1.keyText? = some text := by
  constructor
  · rintro ⟨d, before, k, after, rfl, hk, -⟩
    exact ⟨(k, d), by simp, hk⟩
  · intro h
    induction row with
    | nil => simp at h
    | cons first rest ih =>
      by_cases hrest : ∃ entry ∈ rest, entry.1.keyText? = some text
      · obtain ⟨d, hd⟩ := ih hrest
        exact ⟨d, lastEntry_cons.2 (Or.inl hd)⟩
      · obtain ⟨entry, hmem, htext⟩ := h
        rcases List.mem_cons.1 hmem with rfl | hmem
        · exact ⟨_, lastEntry_cons.2
            (Or.inr ⟨htext, rfl, fun entry he htext => hrest ⟨entry, he, htext⟩⟩)⟩
        · exact absurd ⟨entry, hmem, htext⟩ hrest

lemma LastEntry.unique {row : List (Datum × Datum)} {text : String} {e : Datum}
    (hd : LastEntry row text d) (he : LastEntry row text e) : d = e := by
  induction row with
  | nil =>
    obtain ⟨before, k, after, hrow, -, -⟩ := hd
    simp at hrow
  | cons first rest ih =>
    -- an entry further behind with the text rules the first one out
    have hnot : ∀ {c}, LastEntry rest text c →
        ¬ ∀ entry ∈ rest, entry.1.keyText? ≠ some text := by
      intro c hc hall
      obtain ⟨entry, hmem, htext⟩ := exists_lastEntry_iff.1 ⟨c, hc⟩
      exact hall entry hmem htext
    rcases lastEntry_cons.1 hd with hd | ⟨-, rfl, hall⟩
    · rcases lastEntry_cons.1 he with he | ⟨-, -, hall⟩
      · exact ih hd he
      · exact absurd hall (hnot hd)
    · rcases lastEntry_cons.1 he with he | ⟨-, rfl, -⟩
      · exact absurd hall (hnot he)
      · rfl

/-- The dictionary binds exactly the texts of the keys of the entries, each to the value of the last
entry with that text. -/
structure LastCounts (row : List (Datum × Datum)) (entries : Dictionary Value) : Prop where
  ascending : entries.Ascending
  mem_keys_iff : ∀ text, text ∈ entries.keys ↔ ∃ entry ∈ row, entry.1.keyText? = some text
  mem_iff : ∀ text v, (text, v) ∈ entries ↔ ∃ d, LastEntry row text d ∧ ofDatum d = .ok v

lemma LastCounts.exists_value {row : List (Datum × Datum)} {text : String}
    (h : LastCounts row entries) (hd : LastEntry row text d) :
    ∃ v, Dictionary.get? text entries = some v ∧ ofDatum d = .ok v := by
  obtain ⟨⟨text, v⟩, hmem, rfl⟩ :=
    List.mem_map.1 ((h.mem_keys_iff text).2 (exists_lastEntry_iff.1 ⟨d, hd⟩))
  obtain ⟨e, he, hv⟩ := (h.mem_iff text v).1 hmem
  exact ⟨v, h.ascending.get?_eq_some_iff.2 hmem, hd.unique he ▸ hv⟩

/-- What a key is bound to after the entries of a row. -/
lemma get?_extend_eq_some_iff {bindings : List (String × Value)} {text : String}
    (h : List.Forall₂ Entry.Binds row bindings) :
    Dictionary.get? text (Dictionary.extend bindings entries) = some v ↔
      (∃ d, LastEntry (row.map Entry.pair) text d ∧ ofDatum d = .ok v) ∨
        (∀ e ∈ row, e.key.keyText? ≠ some text) ∧ Dictionary.get? text entries = some v := by
  induction h generalizing entries with
  | nil =>
    have hnone : ∀ d, ¬ LastEntry [] text d := by
      rintro d ⟨before, k, after, hrow, -, -⟩
      simp at hrow
    simp [hnone, Dictionary.extend]
  | @cons e binding row bindings he hrow ih =>
    have hextend : Dictionary.extend (binding :: bindings) entries =
      Dictionary.extend bindings (Dictionary.insert binding.1 binding.2 entries) := rfl
    have hkey : e.key.keyText? = some binding.1 := he.key.2
    have hlast : (∃ d, LastEntry ((e :: row).map Entry.pair) text d ∧
          ofDatum d = .ok v) ↔
        (∃ d, LastEntry (row.map Entry.pair) text d ∧ ofDatum d = .ok v) ∨
          binding.1 = text ∧ binding.2 = v ∧ ∀ e ∈ row, e.key.keyText? ≠ some text := by
      rw [List.map_cons]
      constructor
      · rintro ⟨d, hd, hvalue⟩
        rcases lastEntry_cons.1 hd with hd | ⟨htext, rfl, hrest⟩
        · exact Or.inl ⟨d, hd, hvalue⟩
        · have hbinding : some binding.1 = some text := hkey.symm.trans htext
          have hvalues : binding.2 = v := Except.ok.inj (he.value.symm.trans hvalue)
          exact Or.inr ⟨Option.some.inj hbinding, hvalues,
            fun e he => hrest _ (List.mem_map_of_mem he)⟩
      · rintro (⟨d, hd, hvalue⟩ | ⟨rfl, rfl, hrest⟩)
        · exact ⟨d, lastEntry_cons.2 (Or.inl hd), hvalue⟩
        · have hfirst : LastEntry (e.pair :: row.map Entry.pair) binding.1 e.value :=
            lastEntry_cons.2 (Or.inr ⟨hkey, rfl, List.forall_mem_map.2 hrest⟩)
          exact ⟨e.value, hfirst, he.value⟩
    rw [hextend, ih, Dictionary.get?_insert, List.forall_mem_cons, hkey, hlast]
    by_cases htext : binding.1 = text
    · simp [htext, and_comm]
    · simp [htext]

lemma exists_value_of_lastEntry {bindings : List (String × Value)} {text : String}
    (h : List.Forall₂ Entry.Binds row bindings) (hd : LastEntry (row.map Entry.pair) text d) :
    ∃ v, ofDatum d = .ok v := by
  have hall : ∀ e ∈ row, ∃ v, ofDatum e.value = .ok v := by
    clear hd
    induction h with
    | nil => simp
    | cons he hrow ih => exact List.forall_mem_cons.2 ⟨⟨_, he.value⟩, ih⟩
  obtain ⟨before, k, after, hrow, -, -⟩ := hd
  have hmem : (k, d) ∈ row.map Entry.pair := by simp [hrow]
  obtain ⟨e, he, hpair⟩ := List.mem_map.1 hmem
  obtain ⟨rfl, rfl⟩ := Prod.mk.inj hpair
  exact hall e he

/-- A map binds each key to the last value that comes with it. -/
theorem lastCounts_map {v : Value} (h : ofDatum (.map parts) = .ok v) :
    ∃ entries, v = map entries ∧ LastCounts (MapPart.entries parts) entries := by
  obtain ⟨result, hresult, rfl⟩ := map_eq_ok_iff.1 h
  refine ⟨result, rfl, ?_⟩
  obtain ⟨row, left, rfl⟩ := exists_ofRow hresult
  obtain ⟨-, bindings, hbindings, rfl⟩ := ofParts_ofRow_eq_ok_iff.1 hresult
  have hascending : Dictionary.Ascending (Dictionary.extend bindings []) :=
    Dictionary.ascending_empty.extend bindings
  rw [MapPart.entries_ofRow]
  have hmem : ∀ text v, (text, v) ∈ Dictionary.extend bindings [] ↔
      ∃ d, LastEntry (row.map Entry.pair) text d ∧ ofDatum d = .ok v := by
    intro text v
    rw [← hascending.get?_eq_some_iff, get?_extend_eq_some_iff hbindings]
    simp [Dictionary.get?]
  refine ⟨hascending, fun text => ?_, hmem⟩
  rw [← exists_lastEntry_iff]
  constructor
  · intro htext
    obtain ⟨⟨text, v⟩, hentry, rfl⟩ := List.mem_map.1 htext
    obtain ⟨d, hd, -⟩ := (hmem text v).1 hentry
    exact ⟨d, hd⟩
  · rintro ⟨d, hd⟩
    obtain ⟨v, hv⟩ := exists_value_of_lastEntry hbindings hd
    exact List.mem_map_of_mem ((hmem text v).2 ⟨d, hd, hv⟩)

/-! ### Records -/

/-- A field as an entry whose key is its name. -/
def ofField (field : String × Datum) : Entry := ⟨[], .text field.1, field.2⟩

lemma ofFields_eq_ofParts (entries : Dictionary Value) (fields : List (String × Datum)) :
    ofFields entries fields = ofParts entries Option.none (ofRow (fields.map ofField) []) := by
  induction fields generalizing entries with
  | nil => rfl
  | cons field fields ih =>
    obtain ⟨name, d⟩ := field
    have hkey : ofDatum (.text name) = .ok (string name) := rfl
    have hname : Value.key (string name) = .ok name := rfl
    rw [ofFields_cons, List.map_cons, ofRow_cons]
    simp only [ofField, List.map_nil, List.nil_append, ofParts_key, ofParts_value, hkey, hname, ih,
      Except.bind, Option.elim_some]

/-- A record is a map from the names of its fields. -/
theorem ofDatum_record (fields : List (String × Datum)) :
    ofDatum (.record fields) = ofDatum (.map (ofRow (fields.map ofField) [])) := by
  rw [ofDatum, ofDatum, ofFields_eq_ofParts]

/-- A record binds each name to the last value that comes with it. -/
theorem lastCounts_record {fields : List (String × Datum)} (h : ofDatum (.record fields) = .ok v) :
    ∃ entries, v = map entries ∧
      LastCounts (fields.map fun field => (.text field.1, field.2)) entries := by
  rw [ofDatum_record] at h
  obtain ⟨entries, rfl, hentries⟩ := lastCounts_map h
  rw [MapPart.entries_ofRow, List.map_map] at hentries
  exact ⟨entries, rfl, hentries⟩

end Value
end FormLetter

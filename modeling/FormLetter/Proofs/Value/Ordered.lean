/-
# Values whose maps are dictionaries

The entries of a map inside a value are the entries of a dictionary: their keys ascend.  A value is
ordered if this holds for all maps in it, at any depth.  All data either has an ordered value, since
maps come about by inserting one binding after the other, or fails as bad data
(`converts_ofDatum`).
-/
import FormLetter.Proofs.Dictionary
import FormLetter.Proofs.Faults
import FormLetter.Value.OfDatum

namespace FormLetter
namespace Value

/-- The entries of each map in the value stand in the order of their keys. -/
inductive Ordered : Value → Prop
  | none : Ordered none
  | bool (b : Bool) : Ordered (bool b)
  | int (n : Int64) : Ordered (int n)
  | float (x : Binary64) : Ordered (float x)
  | string (s : String) : Ordered (string s)
  | seq {items : List Value} (items_ordered : ∀ v ∈ items, Ordered v) : Ordered (seq items)
  | map {entries : Dictionary Value} (ascending : entries.Ascending)
      (values_ordered : ∀ entry ∈ entries, Ordered entry.2) : Ordered (map entries)

/-- The entries of an ordered map. -/
structure OrderedEntries (entries : Dictionary Value) : Prop where
  ascending : entries.Ascending
  ordered : ∀ entry ∈ entries, Ordered entry.2

namespace OrderedEntries

variable {entries : Dictionary Value} {v : Value}

lemma empty : OrderedEntries [] := ⟨Dictionary.ascending_empty, by simp⟩

lemma insert (h : OrderedEntries entries) (key : String) (hv : v.Ordered) :
    OrderedEntries (entries.insert key v) := by
  refine ⟨h.ascending.insert key v, fun entry hentry => ?_⟩
  rcases Dictionary.mem_insert hentry with rfl | hentry
  · exact hv
  · exact h.ordered entry hentry

lemma map (h : OrderedEntries entries) : Ordered (map entries) := .map h.ascending h.ordered

/-- A map with a single entry. -/
lemma map_singleton (key : String) (hv : v.Ordered) : Ordered (.map [(key, v)]) :=
  (empty.insert key hv).map

end OrderedEntries

/-! ### What a conversion ends with -/

/-- The conversion gives something with the property, or fails as bad data. -/
abbrev Converts {α : Type} (P : α → Prop) : Except Cause α → Prop := Yields [.badData] P

lemma converts_ofInt (n : Int) : Converts Ordered (ofInt n) := by
  rw [ofInt]
  split_ifs
  · exact Ordered.int _
  · exact List.mem_cons_self

lemma converts_key (v : Value) : Converts (fun _ => True) (key v) := by
  cases v with
  | string s => trivial
  | int n => trivial
  | bool b => trivial
  | none => exact List.mem_cons_self
  | float x => exact List.mem_cons_self
  | seq items => exact List.mem_cons_self
  | map entries => exact List.mem_cons_self

mutual

/-- Data has an ordered value, or fails as bad data. -/
theorem converts_ofDatum (d : Datum) : Converts Ordered (ofDatum d) := by
  cases d with
  | nothing => exact Ordered.none
  | bool b => exact Ordered.bool b
  | int n => exact converts_ofInt n
  | float x => exact Ordered.float x
  | single bits => exact Ordered.float _
  | char c => exact Ordered.string _
  | text s => exact Ordered.string s
  | bytes bytes =>
    refine Ordered.seq fun v hv => ?_
    obtain ⟨b, -, rfl⟩ := List.mem_map.1 hv
    exact .int _
  | wrapped content => exact converts_ofDatum content
  | seq announced items => exact (converts_ofItems items).map fun vs hvs => .seq hvs
  | record fields => exact (converts_ofFields .empty fields).map fun entries h => h.map
  | unitVariant variant => exact Ordered.string variant
  | variant variant content =>
    exact (converts_ofDatum content).map fun v hv => OrderedEntries.map_singleton variant hv
  | tupleVariant variant items =>
    exact (converts_ofItems items).map fun vs hvs => OrderedEntries.map_singleton variant (.seq hvs)
  | recordVariant variant fields =>
    exact (converts_ofFields .empty fields).map fun entries h =>
      OrderedEntries.map_singleton variant h.map
  | map parts => exact (converts_ofParts .empty Option.none parts).map fun entries h => h.map
  | failure message => exact List.mem_cons_self

theorem converts_ofItems (items : List Datum) :
    Converts (fun vs => ∀ v ∈ vs, Ordered v) (ofItems items) := by
  match items with
  | [] => exact List.forall_mem_nil _
  | d :: items =>
    have hd := converts_ofDatum d
    rw [ofItems]
    cases h : ofDatum d with
    | error cause => rwa [h] at hd
    | ok v =>
      rw [h] at hd
      exact (converts_ofItems items).map fun vs hvs => List.forall_mem_cons.2 ⟨hd, hvs⟩

theorem converts_ofFields {entries : Dictionary Value} (hentries : OrderedEntries entries)
    (fields : List (String × Datum)) : Converts OrderedEntries (ofFields entries fields) := by
  match fields with
  | [] => exact hentries
  | (name, d) :: fields =>
    have hd := converts_ofDatum d
    rw [ofFields]
    cases h : ofDatum d with
    | error cause => rwa [h] at hd
    | ok v =>
      rw [h] at hd
      exact converts_ofFields (hentries.insert name hd) fields

theorem converts_ofParts {entries : Dictionary Value} (hentries : OrderedEntries entries)
    (pending : Option String) (parts : List MapPart) :
    Converts OrderedEntries (ofParts entries pending parts) := by
  match parts with
  | [] => exact hentries
  | .key d :: parts =>
    have hd := converts_ofDatum d
    rw [ofParts]
    cases h : ofDatum d with
    | error cause => rwa [h] at hd
    | ok v =>
      have hk := converts_key v
      cases hkey : key v with
      | error cause =>
        rw [hkey] at hk
        simp only [hkey]
        exact hk
      | ok k =>
        simp only [hkey]
        exact converts_ofParts hentries (some k) parts
  | .value d :: parts =>
    have hd := converts_ofDatum d
    rw [ofParts]
    cases h : ofDatum d with
    | error cause => rwa [h] at hd
    | ok v =>
      rw [h] at hd
      cases pending with
      | none => exact List.mem_cons_self
      | some k => exact converts_ofParts (hentries.insert k hd) Option.none parts

end

variable {d : Datum} {v : Value} {cause : Cause}

theorem ordered_of_ofDatum (h : ofDatum d = .ok v) : v.Ordered := by
  have hd := converts_ofDatum d
  rwa [h] at hd

theorem kind_of_ofDatum (h : ofDatum d = .error cause) : cause.kind = .badData := by
  have hd := converts_ofDatum d
  rw [h] at hd
  exact List.mem_singleton.1 hd

end Value
end FormLetter

/-
# The order of the entries of a map

Of several values that come with one key the last one counts, and apart from that the order of the
entries of a map or of the fields of a record makes no difference.  Two descriptions of data are
`Datum.Reordered` if they differ in such an order only, at any depth.  They have the same value or
none (`sameValue_of_reordered`), so the letters that are filled in with them are the same
(`order_of_entries`).
-/
import Mathlib.Data.List.Nodup
import Mathlib.Data.List.Perm.Basic
import FormLetter.Environment
import FormLetter.Proofs.Value.Entries

namespace FormLetter

open MapPart (Entry ofRow)

/-- The two are the same but for the order of entries of maps and of fields of records.  The
entries whose order changes have keys with different texts, and each keeps the dropped keys in front
of it. -/
inductive Datum.Reordered : Datum → Datum → Prop
  | refl (d : Datum) : Reordered d d
  | trans {d e f : Datum} (h : Reordered d e) (h' : Reordered e f) : Reordered d f
  | entries {row row' : List Entry} {left : List Datum} (hperm : row.Perm row')
      (hdistinct : (row.map fun e => e.key.keyText?).Nodup) :
      Reordered (.map (ofRow row left)) (.map (ofRow row' left))
  | fields {fields fields' : List (String × Datum)} (hperm : fields.Perm fields')
      (hdistinct : (fields.map Prod.fst).Nodup) : Reordered (.record fields) (.record fields')
  | wrapped {content content' : Datum} (h : Reordered content content') :
      Reordered (.wrapped content) (.wrapped content')
  | item {announced : Option Nat} {before after : List Datum} {item item' : Datum}
      (h : Reordered item item') :
      Reordered (.seq announced (before ++ item :: after))
        (.seq announced (before ++ item' :: after))
  | value {before after : List MapPart} {content content' : Datum}
      (h : Reordered content content') :
      Reordered (.map (before ++ .value content :: after))
        (.map (before ++ .value content' :: after))
  | field {before after : List (String × Datum)} {name : String} {content content' : Datum}
      (h : Reordered content content') :
      Reordered (.record (before ++ (name, content) :: after))
        (.record (before ++ (name, content') :: after))
  | content {variant : String} {content content' : Datum} (h : Reordered content content') :
      Reordered (.variant variant content) (.variant variant content')
  | variantItems {variant : String} {items items' : List Datum}
      (h : Reordered (.seq none items) (.seq none items')) :
      Reordered (.tupleVariant variant items) (.tupleVariant variant items')
  | variantFields {variant : String} {fields fields' : List (String × Datum)}
      (h : Reordered (.record fields) (.record fields')) :
      Reordered (.recordVariant variant fields) (.recordVariant variant fields')

namespace Value

/-! ### The same value or none -/

/-- What one of the computations gives the other one gives too. -/
def SameValue {α : Type} (x y : Except Cause α) : Prop := ∀ a, x = .ok a ↔ y = .ok a

namespace SameValue

variable {α β : Type} {x y : Except Cause α}

lemma map (h : SameValue x y) (f : α → β) : SameValue (x.map f) (y.map f) := by
  intro b
  rw [map_eq_ok_iff, map_eq_ok_iff]
  simp only [h _]

lemma bind {f g : α → Except Cause β} (h : SameValue x y) (hfg : ∀ a, SameValue (f a) (g a)) :
    SameValue (x.bind f) (y.bind g) := by
  intro b
  rw [bind_eq_ok_iff, bind_eq_ok_iff]
  simp only [h _, hfg _ _]

lemma rfl : SameValue x x := fun _ => Iff.rfl

lemma trans {z : Except Cause α} (h : SameValue x y) (h' : SameValue y z) : SameValue x z :=
  fun a => (h a).trans (h' a)

end SameValue

lemma map_map {α β γ : Type} (x : Except Cause α) (f : α → β) (g : β → γ) :
    (x.map f).map g = x.map fun a => g (f a) := by
  cases x <;> rfl

variable {d d' : Datum}

lemma ofItems_congr (h : SameValue (ofDatum d) (ofDatum d')) (before after : List Datum) :
    SameValue (ofItems (before ++ d :: after)) (ofItems (before ++ d' :: after)) := by
  induction before with
  | nil =>
    rw [List.nil_append, List.nil_append, ofItems_cons, ofItems_cons]
    exact h.bind fun v => .rfl
  | cons first before ih =>
    rw [List.cons_append, List.cons_append, ofItems_cons, ofItems_cons]
    exact SameValue.rfl.bind fun v => ih.map _

lemma ofParts_congr (h : SameValue (ofDatum d) (ofDatum d')) (entries : Dictionary Value)
    (pending : Option String) (before after : List MapPart) :
    SameValue (ofParts entries pending (before ++ .value d :: after))
      (ofParts entries pending (before ++ .value d' :: after)) := by
  induction before generalizing entries pending with
  | nil =>
    rw [List.nil_append, List.nil_append, ofParts_value, ofParts_value]
    exact h.bind fun v => .rfl
  | cons first before ih =>
    rw [List.cons_append, List.cons_append]
    cases first with
    | key k =>
      rw [ofParts_key, ofParts_key]
      exact SameValue.rfl.bind fun v => SameValue.rfl.bind fun text => ih entries (some text)
    | value e =>
      rw [ofParts_value, ofParts_value]
      refine SameValue.rfl.bind fun v => ?_
      cases pending with
      | none => exact .rfl
      | some text => exact ih _ Option.none

/-! ### Entries in another order -/

variable {row row' : List Entry} {left : List Datum} {result : Dictionary Value}

lemma map_keyText?_eq {bindings : List (String × Value)}
    (h : List.Forall₂ Entry.Binds row bindings) :
    row.map (fun e => e.key.keyText?) = (Dictionary.keys bindings).map some := by
  induction h with
  | nil => rfl
  | cons he _ ih =>
    rw [List.map_cons, ih, he.key.2]
    rfl

lemma ofParts_ofRow_perm (hperm : row.Perm row')
    (hdistinct : (row.map fun e => e.key.keyText?).Nodup)
    (h : ofParts [] Option.none (ofRow row left) = .ok result) :
    ofParts [] Option.none (ofRow row' left) = .ok result := by
  obtain ⟨hleft, bindings, hbindings, rfl⟩ := ofParts_ofRow_eq_ok_iff.1 h
  -- the bindings come in the order of the entries
  obtain ⟨bindings', hbindings', hperm'⟩ := List.perm_comp_forall₂ hperm.symm hbindings
  have hkeys : (Dictionary.keys bindings).Nodup := by
    rw [map_keyText?_eq hbindings] at hdistinct
    exact List.Nodup.of_map some hdistinct
  refine ofParts_ofRow_eq_ok_iff.2 ⟨hleft, bindings', hbindings', ?_⟩
  exact Dictionary.extend_perm Dictionary.ascending_empty hperm'.symm hkeys

lemma sameValue_ofRow (hperm : row.Perm row')
    (hdistinct : (row.map fun e => e.key.keyText?).Nodup) :
    SameValue (ofDatum (.map (ofRow row left))) (ofDatum (.map (ofRow row' left))) := by
  have hdistinct' : (row'.map fun e => e.key.keyText?).Nodup :=
    (hperm.map _).nodup_iff.1 hdistinct
  have hparts : SameValue (ofParts [] Option.none (ofRow row left))
      (ofParts [] Option.none (ofRow row' left)) := fun result =>
    ⟨ofParts_ofRow_perm hperm hdistinct, ofParts_ofRow_perm hperm.symm hdistinct'⟩
  exact hparts.map map

/-- Data in another order has the same value or none. -/
theorem sameValue_of_reordered (h : d.Reordered d') : SameValue (ofDatum d) (ofDatum d') := by
  induction h with
  | refl => exact .rfl
  | trans _ _ ih ih' => exact ih.trans ih'
  | entries hperm hdistinct => exact sameValue_ofRow hperm hdistinct
  | @fields fields fields' hperm hdistinct =>
    rw [ofDatum_record, ofDatum_record]
    refine sameValue_ofRow (hperm.map ofField) ?_
    have htexts : (fields.map ofField).map (fun e => e.key.keyText?) =
        (fields.map Prod.fst).map some := by
      rw [List.map_map, List.map_map]
      rfl
    rw [htexts]
    exact List.Nodup.map (fun _ _ => Option.some.inj) hdistinct
  | wrapped _ ih => exact ih
  | item _ ih => exact (ofItems_congr ih _ _).map seq
  | value _ ih => exact (ofParts_congr ih [] Option.none _ _).map map
  | @field before after name content content' _ ih =>
    have hparts : ∀ d, ofRow ((before ++ (name, d) :: after).map ofField) [] =
        (ofRow (before.map ofField) [] ++ [.key (.text name)]) ++
          .value d :: ofRow (after.map ofField) [] := by
      intro d
      simp [ofRow, ofField, Entry.parts]
    rw [ofDatum_record, ofDatum_record, hparts, hparts]
    exact (ofParts_congr ih [] Option.none _ _).map map
  | content _ ih => exact ih.map _
  | @variantItems variant items items' _ ih =>
    have hrow : ∀ items, ofDatum (.tupleVariant variant items) =
        (ofDatum (.seq Option.none items)).map fun v => map [(variant, v)] := by
      intro items
      rw [ofDatum, ofDatum, map_map]
    rw [hrow, hrow]
    exact ih.map _
  | @variantFields variant fields fields' _ ih =>
    have hrow : ∀ fields, ofDatum (.recordVariant variant fields) =
        (ofDatum (.record fields)).map fun v => map [(variant, v)] := by
      intro fields
      rw [ofDatum, ofDatum, map_map]
    rw [hrow, hrow]
    exact ih.map _

/-! ### Filling in -/

/-- Letters are filled in alike with data of the same value. -/
lemma fills_eq_of_ofDatum_eq (h : ofDatum d = ofDatum d') :
    (∀ env : Environment, (∀ letter, env.render letter d' = env.render letter d) ∧
      ∀ source, env.renderText source d' = env.renderText source d) ∧
    ∀ blocks, FormLetter.render blocks d' = FormLetter.render blocks d := by
  have hdata : ofData d' = ofData d := by rw [ofData, ofData, h]
  refine ⟨fun env => ⟨fun letter => ?_, fun source => ?_⟩, fun blocks => ?_⟩
  · rw [Environment.render, Environment.render, hdata]
  · rw [Environment.renderText, Environment.renderText, hdata]
  · rw [FormLetter.render, FormLetter.render, hdata]

/-- **The last value counts, in any order.**  A map binds, in ascending order, the texts of the keys
that have a value, each to the last value that comes with it; so do a record and the record under a
variant with the names of their fields.  Data that differs in the order of entries with different
keys has the same value or none, and all letters are filled in alike with it. -/
theorem order_of_entries :
    (∀ parts v, ofDatum (.map parts) = .ok v →
      ∃ entries, v = map entries ∧ LastCounts (MapPart.entries parts) entries) ∧
    (∀ fields v, ofDatum (.record fields) = .ok v →
      ∃ entries, v = map entries ∧
        LastCounts (fields.map fun field => (.text field.1, field.2)) entries) ∧
    (∀ variant fields v, ofDatum (.recordVariant variant fields) = .ok v →
      ∃ entries, v = map [(variant, map entries)] ∧
        LastCounts (fields.map fun field => (.text field.1, field.2)) entries) ∧
    ∀ d d' : Datum, d.Reordered d' → ∀ v, ofDatum d = .ok v →
      ofDatum d' = .ok v ∧
      (∀ env : Environment, (∀ letter, env.render letter d' = env.render letter d) ∧
        ∀ source, env.renderText source d' = env.renderText source d) ∧
      ∀ blocks, FormLetter.render blocks d' = FormLetter.render blocks d := by
  refine ⟨fun parts v => lastCounts_map, fun fields v => lastCounts_record, ?_, ?_⟩
  · intro variant fields v h
    rw [ofDatum] at h
    obtain ⟨entries, hentries, rfl⟩ := map_eq_ok_iff.1 h
    obtain ⟨_, ⟨rfl⟩, hlast⟩ := lastCounts_record (map_eq_ok_iff.2 ⟨entries, hentries, rfl⟩)
    exact ⟨entries, rfl, hlast⟩
  · intro d d' hreordered v h
    have h' : ofDatum d' = .ok v := (sameValue_of_reordered hreordered v).1 h
    exact ⟨h', fills_eq_of_ofDatum_eq (h.trans h'.symm)⟩

/-- A map in which the number one and the text `1` are the same key, a key is replaced by the next
one and a key is left over, and in it a record with its two fields in either order. -/
theorem order_of_entries_keys :
    let fields : List (String × Datum) := [("y", .int 2), ("x", .nothing)]
    let fields' : List (String × Datum) := [("x", .nothing), ("y", .int 2)]
    let parts (content : Datum) : List MapPart :=
      [.key (.int 9), .key (.int 1), .value .nothing, .key (.text "1"), .value content,
        .key (.bool true)]
    let entries : Dictionary Value := [("1", map [("x", none), ("y", int 2)])]
    ofDatum (.map (parts (.record fields))) = .ok (map entries) ∧
      LastCounts (MapPart.entries (parts (.record fields))) entries ∧
      ofDatum (.map (parts (.record fields'))) = .ok (map entries) ∧
      ∀ (env : Environment) (source : String),
        env.renderText source (.map (parts (.record fields'))) =
          env.renderText source (.map (parts (.record fields))) := by
  intro fields fields' parts entries
  have h : ofDatum (.map (parts (.record fields))) = .ok (map entries) := rfl
  have hfields : Datum.Reordered (.record fields) (.record fields') :=
    .fields (.swap _ _ _) (by decide)
  have hreordered : Datum.Reordered (.map (parts (.record fields)))
      (.map (parts (.record fields'))) :=
    @Datum.Reordered.value [.key (.int 9), .key (.int 1), .value .nothing, .key (.text "1")]
      [.key (.bool true)] _ _ hfields
  obtain ⟨_, ⟨rfl⟩, hlast⟩ := order_of_entries.1 _ _ h
  obtain ⟨h', henv, -⟩ := order_of_entries.2.2.2 _ _ hreordered _ h
  exact ⟨h, hlast, h', fun env => (henv env).2⟩

end Value
end FormLetter

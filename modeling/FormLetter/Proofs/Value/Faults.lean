/-
# What is wrong with data

Four things can be wrong with data: a whole number takes more than 64 bits, something is no key of a
map, a value comes without a key in front of it, or the data itself reports a failure.  `Datum.faults`
lists them in the order in which the data is described, a key being looked at as data first and as a
key then, and a value being looked at before the key that it may lack.

Data fails with its first fault, and has a value if there is none (`failsFirst_ofDatum`).  The list
leaves nothing out: there are no faults just in case no part of the data is faulty
(`faults_eq_nil_iff`).
-/
import FormLetter.Proofs.Value.Pieces

namespace FormLetter

/-! ### Faults -/

namespace Datum

/-- What is wrong with data as a key. -/
def keyFaults (d : Datum) : List Cause :=
  match d.nonKey? with
  | some kind => [.keyKind kind]
  | none => []

mutual

/-- All that is wrong with data, in its order. -/
def faults : Datum → List Cause
  | nothing => []
  | bool _ => []
  | int n => if Value.fits n then [] else [.integerOutOfRange n]
  | float _ => []
  | single _ => []
  | char _ => []
  | text _ => []
  | bytes _ => []
  | wrapped content => faults content
  | seq _ items => itemsFaults items
  | record fields => fieldsFaults fields
  | unitVariant _ => []
  | variant _ content => faults content
  | tupleVariant _ items => itemsFaults items
  | recordVariant _ fields => fieldsFaults fields
  | map parts => partsFaults false parts
  | failure message => [.failure message]

/-- All that is wrong with a row of data. -/
def itemsFaults : List Datum → List Cause
  | [] => []
  | d :: items => faults d ++ itemsFaults items

/-- All that is wrong with the fields of a record. -/
def fieldsFaults : List (String × Datum) → List Cause
  | [] => []
  | (_, d) :: fields => faults d ++ fieldsFaults fields

/-- All that is wrong with the parts of a map, when a key is pending or not. -/
def partsFaults (pending : Bool) : List MapPart → List Cause
  | [] => []
  | .key d :: parts => faults d ++ keyFaults d ++ partsFaults true parts
  | .value d :: parts =>
    faults d ++ (if pending then [] else [.keyMissing]) ++ partsFaults false parts

end

end Datum

namespace Value

/-- The computation fails with the first of the faults, and gives something if there is none. -/
def FailsFirst {α : Type} (faults : List Cause) : Except Cause α → Prop
  | .ok _ => faults = []
  | .error cause => faults.head? = some cause

namespace FailsFirst

variable {α β : Type} {x : Except Cause α} {faults more : List Cause}

lemma map (h : FailsFirst faults x) (f : α → β) : FailsFirst faults (x.map f) := by
  cases x with
  | error cause => exact h
  | ok a => exact h

/-- What comes later makes no difference once the computation has failed. -/
lemma bind {f : α → Except Cause β} (h : FailsFirst faults x)
    (hf : ∀ a, x = .ok a → FailsFirst more (f a)) : FailsFirst (faults ++ more) (x.bind f) := by
  cases x with
  | error cause =>
    obtain ⟨rest, rfl⟩ := List.head?_eq_some_iff.1 h
    rfl
  | ok a =>
    have hnil : faults = [] := h
    rw [hnil]
    exact hf a rfl

end FailsFirst

lemma failsFirst_ofInt (n : Int) : FailsFirst (Datum.int n).faults (ofInt n) := by
  rw [Datum.faults]
  cases hfits : fits n with
  | false =>
    rw [ofInt_of_not_fits hfits]
    rfl
  | true =>
    rw [ofInt_of_fits hfits]
    rfl

lemma failsFirst_key {d : Datum} {v : Value} (h : ofDatum d = .ok v) :
    FailsFirst d.keyFaults (key v) := by
  rcases key_cases d v h with ⟨text, -, hnonKey, hkey⟩ | ⟨kind, -, hnonKey, hkey⟩
  · rw [hkey, Datum.keyFaults, hnonKey]
    rfl
  · rw [hkey, Datum.keyFaults, hnonKey]
    rfl

mutual

/-- Data fails with its first fault, and has a value if there is none. -/
theorem failsFirst_ofDatum (d : Datum) : FailsFirst d.faults (ofDatum d) := by
  cases d with
  | int n => exact failsFirst_ofInt n
  | wrapped content => exact failsFirst_ofDatum content
  | seq announced items => exact (failsFirst_ofItems items).map seq
  | record fields => exact (failsFirst_ofFields [] fields).map map
  | variant variant content => exact (failsFirst_ofDatum content).map _
  | tupleVariant variant items => exact (failsFirst_ofItems items).map _
  | recordVariant variant fields => exact (failsFirst_ofFields [] fields).map _
  | map parts => exact (failsFirst_ofParts [] Option.none parts).map map
  | failure message => rfl
  | _ => rfl

theorem failsFirst_ofItems (items : List Datum) :
    FailsFirst (Datum.itemsFaults items) (ofItems items) := by
  match items with
  | [] => rfl
  | d :: items =>
    rw [Datum.itemsFaults, ofItems_cons]
    exact (failsFirst_ofDatum d).bind fun v _ => (failsFirst_ofItems items).map _

theorem failsFirst_ofFields (entries : Dictionary Value) (fields : List (String × Datum)) :
    FailsFirst (Datum.fieldsFaults fields) (ofFields entries fields) := by
  match fields with
  | [] => rfl
  | (name, d) :: fields =>
    rw [Datum.fieldsFaults, ofFields_cons]
    exact (failsFirst_ofDatum d).bind fun v _ => failsFirst_ofFields _ fields

theorem failsFirst_ofParts (entries : Dictionary Value) (pending : Option String)
    (parts : List MapPart) :
    FailsFirst (Datum.partsFaults pending.isSome parts) (ofParts entries pending parts) := by
  match parts with
  | [] => rfl
  | .key d :: parts =>
    rw [Datum.partsFaults, ofParts_key, List.append_assoc]
    refine (failsFirst_ofDatum d).bind fun v h => ?_
    -- the key has a value, which may still be no key
    exact (failsFirst_key h).bind fun text _ => failsFirst_ofParts entries (some text) parts
  | .value d :: parts =>
    rw [Datum.partsFaults, ofParts_value, List.append_assoc]
    refine (failsFirst_ofDatum d).bind fun v _ => ?_
    cases pending with
    | none => rfl
    | some text => exact failsFirst_ofParts _ Option.none parts

end

end Value

/-! ### What the faults are about -/

namespace Datum

/-- The data is the other data or a part of it, at any depth. -/
inductive Occurs (part : Datum) : Datum → Prop
  | here : Occurs part part
  | wrapped {content : Datum} (h : Occurs part content) : Occurs part (.wrapped content)
  | item {announced : Option Nat} {items : List Datum} {item : Datum} (hmem : item ∈ items)
      (h : Occurs part item) : Occurs part (.seq announced items)
  | field {fields : List (String × Datum)} {field : String × Datum} (hmem : field ∈ fields)
      (h : Occurs part field.2) : Occurs part (.record fields)
  | content {variant : String} {content : Datum} (h : Occurs part content) :
      Occurs part (.variant variant content)
  | tupleItem {variant : String} {items : List Datum} {item : Datum} (hmem : item ∈ items)
      (h : Occurs part item) : Occurs part (.tupleVariant variant items)
  | variantField {variant : String} {fields : List (String × Datum)} {field : String × Datum}
      (hmem : field ∈ fields) (h : Occurs part field.2) :
      Occurs part (.recordVariant variant fields)
  | key {parts : List MapPart} {k : Datum} (hmem : .key k ∈ parts) (h : Occurs part k) :
      Occurs part (.map parts)
  | value {parts : List MapPart} {d : Datum} (hmem : .value d ∈ parts) (h : Occurs part d) :
      Occurs part (.map parts)

/-- Something is wrong with the data itself: it is a whole number that is too large or too small, a
failure, a map with a key that is none, or a map with a value that has no key directly in front of
it. -/
inductive Faulty : Datum → Prop
  | number {n : Int} (h : Value.fits n = false) : Faulty (.int n)
  | failure (message : String) : Faulty (.failure message)
  | key {parts : List MapPart} {k : Datum} {kind : Value.Kind} (hmem : .key k ∈ parts)
      (h : k.nonKey? = some kind) : Faulty (.map parts)
  | value {before after : List MapPart} {d : Datum} (h : ∀ k, before.getLast? ≠ some (.key k)) :
      Faulty (.map (before ++ .value d :: after))

variable {d part : Datum} {items : List Datum} {fields : List (String × Datum)}
  {parts : List MapPart} {pending : Bool}

lemma keyFaults_eq_nil_iff : d.keyFaults = [] ↔ d.nonKey? = none := by
  rw [keyFaults]
  cases d.nonKey? with
  | none => simp
  | some kind => simp

lemma itemsFaults_eq_nil_iff : itemsFaults items = [] ↔ ∀ d ∈ items, d.faults = [] := by
  induction items with
  | nil => simp [itemsFaults]
  | cons d items ih => rw [itemsFaults, List.append_eq_nil_iff, ih, List.forall_mem_cons]

lemma fieldsFaults_eq_nil_iff :
    fieldsFaults fields = [] ↔ ∀ field ∈ fields, field.2.faults = [] := by
  induction fields with
  | nil => simp [fieldsFaults]
  | cons field fields ih => rw [fieldsFaults, List.append_eq_nil_iff, ih, List.forall_mem_cons]

/-- Each value has a key directly in front of it, the first part being behind a key or not. -/
def Paired (pending : Bool) : List MapPart → Prop
  | [] => True
  | .key _ :: parts => Paired true parts
  | .value _ :: parts => pending = true ∧ Paired false parts

lemma partsFaults_eq_nil_iff :
    partsFaults pending parts = [] ↔
      (∀ k, .key k ∈ parts → k.faults = [] ∧ k.nonKey? = none) ∧
        (∀ d, .value d ∈ parts → d.faults = []) ∧ Paired pending parts := by
  induction parts generalizing pending with
  | nil => simp [partsFaults, Paired]
  | cons first parts ih =>
    cases first with
    | key k =>
      simp only [partsFaults, List.append_eq_nil_iff, keyFaults_eq_nil_iff, ih, List.mem_cons,
        MapPart.key.injEq, reduceCtorEq, false_or, Paired]
      constructor
      · rintro ⟨hk, hkeys, hvalues, hpaired⟩
        refine ⟨fun l hl => ?_, hvalues, hpaired⟩
        rcases hl with rfl | hl
        · exact hk
        · exact hkeys l hl
      · rintro ⟨hkeys, hvalues, hpaired⟩
        exact ⟨hkeys k (Or.inl rfl), fun l hl => hkeys l (Or.inr hl), hvalues, hpaired⟩
    | value d =>
      have hmissing : (if pending then [] else [Cause.keyMissing]) = [] ↔ pending = true := by
        cases pending <;> simp
      simp only [partsFaults, List.append_eq_nil_iff, hmissing, ih, List.mem_cons,
        MapPart.value.injEq, reduceCtorEq, false_or, Paired]
      constructor
      · rintro ⟨⟨hd, hpending⟩, hkeys, hvalues, hpaired⟩
        refine ⟨hkeys, fun e he => ?_, hpending, hpaired⟩
        rcases he with rfl | he
        · exact hd
        · exact hvalues e he
      · rintro ⟨hkeys, hvalues, hpending, hpaired⟩
        exact ⟨⟨hvalues d (Or.inl rfl), hpending⟩, hkeys, fun e he => hvalues e (Or.inr he),
          hpaired⟩

/-- Values are paired with keys if each of them has a key directly in front of it. -/
lemma paired_iff :
    Paired pending parts ↔ ∀ before d after, parts = before ++ .value d :: after →
      (∃ k, before.getLast? = some (.key k)) ∨ before = [] ∧ pending = true := by
  induction parts generalizing pending with
  | nil => simp [Paired]
  | cons first parts ih =>
    -- a part behind the first one has the first one in front of it, or another one
    have hlast : ∀ before k, (first :: before).getLast? = some (.key k) ↔
        before.getLast? = some (.key k) ∨ before = [] ∧ first = .key k := by
      intro before k
      cases before with
      | nil => simp
      | cons next before => simp [List.getLast?_cons]
    constructor
    · intro h before d after hparts
      cases before with
      | nil =>
        obtain ⟨rfl, rfl⟩ := List.cons.inj hparts
        exact Or.inr ⟨rfl, h.1⟩
      | cons _ before =>
        obtain ⟨rfl, rfl⟩ := List.cons.inj hparts
        left
        cases first with
        | key k =>
          rcases ih.1 h before d after rfl with ⟨l, hl⟩ | ⟨rfl, -⟩
          · exact ⟨l, (hlast _ _).2 (Or.inl hl)⟩
          · exact ⟨k, rfl⟩
        | value e =>
          rcases ih.1 h.2 before d after rfl with ⟨l, hl⟩ | ⟨-, hpending⟩
          · exact ⟨l, (hlast _ _).2 (Or.inl hl)⟩
          · cases hpending
    · intro h
      cases first with
      | key k =>
        refine ih.2 fun before d after hparts => ?_
        have hall : .key k :: parts = .key k :: before ++ .value d :: after := by
          rw [hparts, List.cons_append]
        rcases h _ d after hall with ⟨l, hl⟩ | ⟨hnil, -⟩
        · exact ((hlast _ _).1 hl).imp (fun hl => ⟨l, hl⟩) fun hnil => ⟨hnil.1, rfl⟩
        · cases hnil
      | value e =>
        constructor
        · rcases h [] e parts rfl with ⟨l, hl⟩ | ⟨-, hpending⟩
          · cases hl
          · exact hpending
        · refine ih.2 fun before d after hparts => ?_
          rcases h (.value e :: before) d after (by rw [hparts, List.cons_append]) with
            ⟨l, hl⟩ | ⟨hnil, -⟩
          · rcases (hlast _ _).1 hl with hl | ⟨-, hkey⟩
            · exact Or.inl ⟨l, hl⟩
            · cases hkey
          · cases hnil

/-- Data without faults has no part that is faulty. -/
lemma not_faulty_of_faults_eq_nil (h : d.faults = []) (hpart : part.Occurs d) : ¬ part.Faulty := by
  induction hpart with
  | here =>
    intro hfaulty
    cases hfaulty with
    | number hfits => simp [faults, hfits] at h
    | failure message => simp [faults] at h
    | key hmem hkind =>
      obtain ⟨hkeys, -, -⟩ := partsFaults_eq_nil_iff.1 h
      rw [(hkeys _ hmem).2] at hkind
      cases hkind
    | value hfirst =>
      obtain ⟨-, -, hpaired⟩ := partsFaults_eq_nil_iff.1 h
      rcases paired_iff.1 hpaired _ _ _ rfl with ⟨k, hk⟩ | ⟨-, hpending⟩
      · exact hfirst k hk
      · cases hpending
  | wrapped _ ih => exact ih h
  | item hmem _ ih => exact ih (itemsFaults_eq_nil_iff.1 h _ hmem)
  | field hmem _ ih => exact ih (fieldsFaults_eq_nil_iff.1 h _ hmem)
  | content _ ih => exact ih h
  | tupleItem hmem _ ih => exact ih (itemsFaults_eq_nil_iff.1 h _ hmem)
  | variantField hmem _ ih => exact ih (fieldsFaults_eq_nil_iff.1 h _ hmem)
  | key hmem _ ih => exact ih ((partsFaults_eq_nil_iff.1 h).1 _ hmem).1
  | value hmem _ ih => exact ih ((partsFaults_eq_nil_iff.1 h).2.1 _ hmem)

/-- The data has faults only if some part of it is faulty. -/
def Blames (d : Datum) : Prop := (∀ part : Datum, part.Occurs d → ¬ part.Faulty) → d.faults = []

mutual

theorem blames (d : Datum) : d.Blames := by
  cases d with
  | int n =>
    intro h
    cases hfits : Value.fits n with
    | false => exact absurd (.number hfits) (h _ .here)
    | true => simp [faults, hfits]
  | wrapped content => exact fun h => blames content fun part hpart => h part (.wrapped hpart)
  | seq announced items =>
    intro h
    exact itemsFaults_eq_nil_iff.2 fun d hd =>
      blames_items items d hd fun part hpart => h part (.item hd hpart)
  | record fields =>
    intro h
    exact fieldsFaults_eq_nil_iff.2 fun field hfield =>
      blames_fields fields field hfield fun part hpart => h part (.field hfield hpart)
  | variant variant content =>
    exact fun h => blames content fun part hpart => h part (.content hpart)
  | tupleVariant variant items =>
    intro h
    exact itemsFaults_eq_nil_iff.2 fun d hd =>
      blames_items items d hd fun part hpart => h part (.tupleItem hd hpart)
  | recordVariant variant fields =>
    intro h
    exact fieldsFaults_eq_nil_iff.2 fun field hfield =>
      blames_fields fields field hfield fun part hpart => h part (.variantField hfield hpart)
  | map parts =>
    intro h
    obtain ⟨hkeys, hvalues⟩ := blames_parts parts
    refine partsFaults_eq_nil_iff.2 ⟨fun k hk => ⟨?_, ?_⟩, fun d hd => ?_, ?_⟩
    · exact hkeys k hk fun part hpart => h part (.key hk hpart)
    · cases hkind : k.nonKey? with
      | none => rfl
      | some kind => exact absurd (.key hk hkind) (h _ .here)
    · exact hvalues d hd fun part hpart => h part (.value hd hpart)
    · refine paired_iff.2 fun before d after hparts => Or.inl ?_
      by_contra hnone
      subst hparts
      exact h _ .here (.value fun k hk => hnone ⟨k, hk⟩)
  | failure message => exact fun h => absurd (.failure message) (h _ .here)
  | _ => exact fun _ => rfl

theorem blames_items (items : List Datum) : ∀ d ∈ items, d.Blames := by
  match items with
  | [] => exact List.forall_mem_nil _
  | d :: items => exact List.forall_mem_cons.2 ⟨blames d, blames_items items⟩

theorem blames_fields (fields : List (String × Datum)) : ∀ field ∈ fields, field.2.Blames := by
  match fields with
  | [] => exact List.forall_mem_nil _
  | (name, d) :: fields => exact List.forall_mem_cons.2 ⟨blames d, blames_fields fields⟩

theorem blames_parts (parts : List MapPart) :
    (∀ k, .key k ∈ parts → k.Blames) ∧ ∀ d, .value d ∈ parts → d.Blames := by
  match parts with
  | [] => simp
  | .key k :: parts =>
    obtain ⟨hkeys, hvalues⟩ := blames_parts parts
    have hk := blames k
    refine ⟨fun l hl => ?_, fun d hd => hvalues d (by simpa using hd)⟩
    rcases List.mem_cons.1 hl with h | hl
    · exact MapPart.key.inj h ▸ hk
    · exact hkeys l hl
  | .value d :: parts =>
    obtain ⟨hkeys, hvalues⟩ := blames_parts parts
    have hd := blames d
    refine ⟨fun k hk => hkeys k (by simpa using hk), fun e he => ?_⟩
    rcases List.mem_cons.1 he with h | he
    · exact MapPart.value.inj h ▸ hd
    · exact hvalues e he

end

/-- Data has faults just in case some part of it is faulty. -/
theorem faults_eq_nil_iff : d.faults = [] ↔ ∀ part : Datum, part.Occurs d → ¬ part.Faulty :=
  ⟨fun h _ => not_faulty_of_faults_eq_nil h, blames d⟩

end Datum

end FormLetter

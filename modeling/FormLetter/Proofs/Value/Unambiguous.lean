/-
# The text of a value determines the value

Inside a sequence or a map each value is written so that it can be read back from the left.  Texts
stand between quotes, sequences between brackets and maps between braces, and everything else is a
word of letters, digits and the minus sign.  A word does not show by itself where it ends, but what
stands behind a part, a comma or a closing bracket or brace, belongs to no word.  So the text of a
part determines the part and where it ends, if something of this kind stands behind it
(`innerText_append_inj`), and sequences and maps without numbers with a fraction are known from their
text (`eq_of_text_eq`).
-/
import Mathlib.Data.List.Basic
import FormLetter.Proofs.Digits
import FormLetter.Proofs.Joined
import FormLetter.Proofs.Quoted
import FormLetter.Value.Basic

namespace FormLetter

/-! ### Rows of parts -/

namespace Text

/-- The text goes on with what can stand behind a part of a sequence or a map. -/
def StopsAt (cs : List Char) : Prop := ∃ c ∈ cs.head?, c = ',' ∨ c = ']' ∨ c = '}'

lemma toList_listing (texts : List String) :
    (listing texts).toList = '[' :: ((joined ", " texts).toList ++ [']']) := by
  simp [listing]

lemma toList_braced (texts : List String) :
    (braced texts).toList = '{' :: ((joined ", " texts).toList ++ ['}']) := by
  simp [braced]

/-- Behind the first part each part has a comma and a space in front of it. -/
lemma toList_joined_parts (text : String) (texts : List String) :
    (joined ", " (text :: texts)).toList =
      text.toList ++ texts.flatMap fun t => ',' :: ' ' :: t.toList :=
  toList_joined_cons ", " text texts

/-- The parts of two rows, written by the given function, can be told apart when something stands
behind them. -/
structure ToldApart {α : Type} (write : α → String) (as bs : List α) : Prop where
  /-- No part starts like what stands behind a part. -/
  starts_left : ∀ a ∈ as, ∀ r, ¬ StopsAt ((write a).toList ++ r)
  starts_right : ∀ b ∈ bs, ∀ r, ¬ StopsAt ((write b).toList ++ r)
  append_inj : ∀ a ∈ as, ∀ b ∈ bs, ∀ {r s}, StopsAt r → StopsAt s →
    (write a).toList ++ r = (write b).toList ++ s → a = b ∧ r = s

namespace ToldApart

variable {α : Type} {write : α → String} {a b : α} {as bs : List α} {close : Char} {r s : List Char}

lemma of_cons (h : ToldApart write (a :: as) (b :: bs)) : ToldApart write as bs where
  starts_left := fun c hc => h.starts_left c (List.mem_cons_of_mem _ hc)
  starts_right := fun c hc => h.starts_right c (List.mem_cons_of_mem _ hc)
  append_inj := fun c hc d hd =>
    h.append_inj c (List.mem_cons_of_mem _ hc) d (List.mem_cons_of_mem _ hd)

lemma stopsAt_tail (hclose : StopsAt [close]) (as : List α) (r : List Char) :
    StopsAt ((as.flatMap fun a => ',' :: ' ' :: (write a).toList) ++ close :: r) := by
  cases as with
  | nil => exact hclose
  | cons a as => exact ⟨',', rfl, Or.inl rfl⟩

/-- The parts behind the first one are known from their texts. -/
lemma tail_append_inj (hclose : StopsAt [close]) (hcomma : close ≠ ',')
    (happart : ToldApart write as bs)
    (h : (as.flatMap fun a => ',' :: ' ' :: (write a).toList) ++ close :: r =
      (bs.flatMap fun b => ',' :: ' ' :: (write b).toList) ++ close :: s) : as = bs ∧ r = s := by
  induction as generalizing bs with
  | nil =>
    cases bs with
    | nil => exact ⟨rfl, (List.cons.inj h).2⟩
    | cons b bs => exact absurd (List.cons.inj h).1 hcomma
  | cons a as ih =>
    cases bs with
    | nil => exact absurd (List.cons.inj h).1.symm hcomma
    | cons b bs =>
      simp only [List.flatMap_cons, List.cons_append, List.append_assoc, List.cons.injEq,
        true_and] at h
      obtain ⟨rfl, hrest⟩ := happart.append_inj a List.mem_cons_self b List.mem_cons_self
        (stopsAt_tail hclose as r) (stopsAt_tail hclose bs s) h
      obtain ⟨rfl, hbehind⟩ := ih happart.of_cons hrest
      exact ⟨rfl, hbehind⟩

/-- The parts of a row are known from the text of the row, and so is where the row ends. -/
theorem joined_append_inj (hclose : StopsAt [close]) (hcomma : close ≠ ',')
    (happart : ToldApart write as bs)
    (h : (joined ", " (as.map write)).toList ++ close :: r =
      (joined ", " (bs.map write)).toList ++ close :: s) : as = bs ∧ r = s := by
  -- a row without parts closes where another one would start with its first part
  have hempty : ∀ r, StopsAt ((joined ", " []).toList ++ close :: r) := fun r => hclose
  cases as with
  | nil =>
    cases bs with
    | nil => exact ⟨rfl, (List.cons.inj h).2⟩
    | cons b bs =>
      have hstops := hempty r
      rw [← List.map_nil (f := write), h, List.map_cons, toList_joined_parts,
        List.append_assoc] at hstops
      exact absurd hstops (happart.starts_right b List.mem_cons_self _)
  | cons a as =>
    cases bs with
    | nil =>
      have hstops := hempty s
      rw [← List.map_nil (f := write), ← h, List.map_cons, toList_joined_parts,
        List.append_assoc] at hstops
      exact absurd hstops (happart.starts_left a List.mem_cons_self _)
    | cons b bs =>
      simp only [List.map_cons, toList_joined_parts, List.append_assoc, List.flatMap_map] at h
      obtain ⟨rfl, hrest⟩ := happart.append_inj a List.mem_cons_self b List.mem_cons_self
        (stopsAt_tail hclose as r) (stopsAt_tail hclose bs s) h
      obtain ⟨rfl, hbehind⟩ := tail_append_inj hclose hcomma happart.of_cons hrest
      exact ⟨rfl, hbehind⟩

end ToldApart
end Text

namespace Value

open Text (StopsAt ToldApart)

/-- No part of the value, at any depth, is a number with a fraction. -/
inductive FloatFree : Value → Prop
  | none : FloatFree none
  | bool (b : Bool) : FloatFree (bool b)
  | int (n : Int64) : FloatFree (int n)
  | string (s : String) : FloatFree (string s)
  | seq {items : List Value} (items_floatFree : ∀ v ∈ items, FloatFree v) : FloatFree (seq items)
  | map {entries : List (String × Value)}
      (values_floatFree : ∀ entry ∈ entries, FloatFree entry.2) : FloatFree (map entries)

lemma itemTexts_eq_map (items : List Value) : itemTexts items = items.map innerText := by
  induction items with
  | nil => rfl
  | cons v items ih => rw [itemTexts, ih, List.map_cons]

/-- The text of an entry of a map. -/
def entryText (entry : String × Value) : String := Text.quote entry.1 ++ ": " ++ innerText entry.2

lemma entryTexts_eq_map (entries : List (String × Value)) :
    entryTexts entries = entries.map entryText := by
  induction entries with
  | nil => rfl
  | cons entry entries ih => rw [entryTexts, ih, List.map_cons, entryText]

/-! ### Words -/

/-- The character with which the text of a value starts that is no word. -/
def opening? : Value → Option Char
  | string _ => some '"'
  | seq _ => some '['
  | map _ => some '{'
  | _ => Option.none

/-- Can the character be part of a word? -/
def isWordChar (c : Char) : Bool := c.isAlphanum || c == '-'

variable {v w : Value} {r s : List Char}

/-- What is not written with an opening character is written as a word. -/
lemma word_of_opening?_eq_none (hv : FloatFree v) (h : v.opening? = Option.none) :
    innerText v ≠ "" ∧ ∀ c ∈ (innerText v).toList, isWordChar c = true := by
  cases hv with
  | none => simp [innerText, isWordChar, Char.isAlphanum]
  | bool b => cases b <;> simp [innerText, isWordChar, Char.isAlphanum]
  | int n =>
    refine ⟨Text.toString_int_ne_empty _, fun c hc => ?_⟩
    rcases Text.mem_toList_toString hc with hdigit | rfl
    · simp [isWordChar, Char.isAlphanum, hdigit]
    · decide
  | string s => cases h
  | seq => cases h
  | map => cases h

/-- A text of a value that is no word starts with its opening character. -/
lemma head?_innerText_of_opening? {c : Char} (h : v.opening? = some c) :
    (innerText v).toList.head? = some c := by
  cases v with
  | string s =>
    rw [innerText, Text.toList_quote]
    exact h
  | seq items =>
    rw [innerText, Text.toList_listing]
    exact h
  | map entries =>
    rw [innerText, Text.toList_braced]
    exact h
  | _ => cases h

/-- How the text of a value starts. -/
lemma exists_head (hv : FloatFree v) : ∃ c cs, (innerText v).toList = c :: cs ∧
    (v.opening? = some c ∨ v.opening? = Option.none ∧ isWordChar c = true) := by
  cases hopening : v.opening? with
  | none =>
    obtain ⟨hne, hword⟩ := word_of_opening?_eq_none hv hopening
    obtain ⟨c, cs, hcs⟩ := List.exists_cons_of_ne_nil (fun h => hne (String.toList_eq_nil_iff.1 h))
    exact ⟨c, cs, hcs, Or.inr ⟨rfl, hword c (hcs ▸ List.mem_cons_self)⟩⟩
  | some c =>
    obtain ⟨cs, hcs⟩ := List.head?_eq_some_iff.1 (head?_innerText_of_opening? hopening)
    exact ⟨c, cs, hcs, Or.inl rfl⟩

lemma opening?_cases {c : Char} (h : v.opening? = some c) : c = '"' ∨ c = '[' ∨ c = '{' := by
  cases v with
  | string s => exact Or.inl (Option.some.inj h).symm
  | seq items => exact Or.inr (Or.inl (Option.some.inj h).symm)
  | map entries => exact Or.inr (Or.inr (Option.some.inj h).symm)
  | _ => cases h

/-- No value starts like what stands behind a value. -/
lemma not_stopsAt_innerText (hv : FloatFree v) (r : List Char) :
    ¬ StopsAt ((innerText v).toList ++ r) := by
  obtain ⟨c, cs, hcs, hc⟩ := exists_head hv
  rw [hcs]
  rintro ⟨d, ⟨rfl⟩, hstop⟩
  rcases hc with hopening | ⟨-, hword⟩
  · rcases opening?_cases hopening with rfl | rfl | rfl <;> revert hstop <;> decide
  · rcases hstop with rfl | rfl | rfl <;> revert hword <;> decide

/-- Texts that start alike are of values that open alike. -/
lemma opening?_eq_of_append_eq (hv : FloatFree v) (hw : FloatFree w)
    (h : (innerText v).toList ++ r = (innerText w).toList ++ s) : v.opening? = w.opening? := by
  obtain ⟨c, cs, hcs, hc⟩ := exists_head hv
  obtain ⟨d, ds, hds, hd⟩ := exists_head hw
  rw [hcs, hds] at h
  obtain rfl : c = d := (List.cons.inj h).1
  -- an opening character is no part of a word
  have hapart : ∀ {u : Value}, u.opening? = some c → isWordChar c ≠ true := by
    intro u hu
    rcases opening?_cases hu with rfl | rfl | rfl <;> decide
  rcases hc with hc | ⟨hc, hword⟩ <;> rcases hd with hd | ⟨hd, hword'⟩
  · rw [hc, hd]
  · exact absurd hword' (hapart hc)
  · exact absurd hword (hapart hd)
  · rw [hc, hd]

/-- A number is written unlike all that is no number. -/
lemma toString_int_ne {n : Int} {t : String} {c : Char} (hc : c ∈ t.toList)
    (hdigit : c.isDigit = false) (hminus : c ≠ '-') : toString n ≠ t := by
  rintro rfl
  rcases Text.mem_toList_toString hc with h | h
  · rw [hdigit] at h
    cases h
  · exact hminus h

/-- Different words are written differently. -/
lemma eq_of_word_eq (hv : FloatFree v) (hw : FloatFree w) (hv' : v.opening? = Option.none)
    (hw' : w.opening? = Option.none) (h : innerText v = innerText w) : v = w := by
  have hbool : ∀ (n : Int64) (b : Bool), innerText (int n) ≠ innerText (bool b) := by
    intro n b
    cases b
    · exact toString_int_ne (c := 'f') (by decide) rfl (by decide)
    · exact toString_int_ne (c := 't') (by decide) rfl (by decide)
  have hnone : ∀ n : Int64, innerText (int n) ≠ innerText none := fun n =>
    toString_int_ne (c := 'n') (by decide) rfl (by decide)
  cases hv with
  | none =>
    cases hw with
    | none => rfl
    | bool b => exact absurd h (by cases b <;> decide)
    | int n => exact absurd h.symm (hnone n)
    | _ => cases hw'
  | bool b =>
    cases hw with
    | none => exact absurd h (by cases b <;> decide)
    | bool b' =>
      have hsame : b = b' := by
        revert h
        cases b <;> cases b' <;> decide
      rw [hsame]
    | int n => exact absurd h.symm (hbool n b)
    | _ => cases hw'
  | int n =>
    cases hw with
    | none => exact absurd h (hnone n)
    | bool b => exact absurd h (hbool n b)
    | int m =>
      rw [innerText, innerText] at h
      rw [Int64.toInt_inj.1 (Text.toString_int_inj h)]
    | _ => cases hw'
  | _ => cases hv'

lemma takeWhile_word (hword : ∀ c ∈ (innerText v).toList, isWordChar c = true) (hr : StopsAt r) :
    ((innerText v).toList ++ r).takeWhile isWordChar = (innerText v).toList := by
  obtain ⟨c, hc, hstop⟩ := hr
  obtain ⟨cs, rfl⟩ := List.head?_eq_some_iff.1 hc
  have hnot : isWordChar c = false := by
    rcases hstop with rfl | rfl | rfl <;> decide
  rw [List.takeWhile_append_of_pos hword, List.takeWhile_cons_of_neg (by simp [hnot]),
    List.append_nil]

/-- A word ends where something stands behind it. -/
lemma word_append_inj (hv : FloatFree v) (hw : FloatFree w) (hv' : v.opening? = Option.none)
    (hw' : w.opening? = Option.none) (hr : StopsAt r) (hs : StopsAt s)
    (h : (innerText v).toList ++ r = (innerText w).toList ++ s) : v = w ∧ r = s := by
  have hword := congrArg (List.takeWhile isWordChar) h
  rw [takeWhile_word (word_of_opening?_eq_none hv hv').2 hr,
    takeWhile_word (word_of_opening?_eq_none hw hw').2 hs] at hword
  obtain rfl := eq_of_word_eq hv hw hv' hw' (String.toList_inj.1 hword)
  exact ⟨rfl, List.append_cancel_left h⟩

/-! ### Values -/

lemma entryText_append_inj {entry entry' : String × Value}
    (hvalue : ∀ {r s}, StopsAt r → StopsAt s →
      (innerText entry.2).toList ++ r = (innerText entry'.2).toList ++ s →
        entry.2 = entry'.2 ∧ r = s)
    (hr : StopsAt r) (hs : StopsAt s)
    (h : (entryText entry).toList ++ r = (entryText entry').toList ++ s) :
    entry = entry' ∧ r = s := by
  simp only [entryText, String.toList_append, List.append_assoc] at h
  obtain ⟨hkey, hrest⟩ := Text.quote_append_inj h
  obtain ⟨hv, hbehind⟩ := hvalue hr hs (List.append_cancel_left hrest)
  exact ⟨Prod.ext hkey hv, hbehind⟩

lemma not_stopsAt_entryText (entry : String × Value) (r : List Char) :
    ¬ StopsAt ((entryText entry).toList ++ r) := by
  rintro ⟨c, hc, hstop⟩
  simp only [entryText, String.toList_append, Text.toList_quote, List.cons_append,
    List.head?_cons, Option.mem_some_iff] at hc
  subst hc
  revert hstop
  decide

/-- The text of a part determines the part and where it ends. -/
theorem innerText_append_inj (hv : FloatFree v) (hw : FloatFree w) (hr : StopsAt r)
    (hs : StopsAt s) (h : (innerText v).toList ++ r = (innerText w).toList ++ s) :
    v = w ∧ r = s := by
  have hopening := opening?_eq_of_append_eq hv hw h
  induction hv generalizing w r s with
  | none => exact word_append_inj .none hw rfl hopening.symm hr hs h
  | bool b => exact word_append_inj (.bool b) hw rfl hopening.symm hr hs h
  | int n => exact word_append_inj (.int n) hw rfl hopening.symm hr hs h
  | string t =>
    cases hw with
    | string t' =>
      obtain ⟨rfl, hrest⟩ := Text.quote_append_inj h
      exact ⟨rfl, hrest⟩
    | _ => cases hopening
  | @seq items hitems ih =>
    cases hw with
    | @seq items' hitems' =>
      have happart : ToldApart innerText items items' := by
        refine ⟨fun a ha => not_stopsAt_innerText (hitems a ha),
          fun b hb => not_stopsAt_innerText (hitems' b hb), ?_⟩
        intro a ha b hb r s hr hs hab
        exact ih a ha (hitems' b hb) hr hs hab
          (opening?_eq_of_append_eq (hitems a ha) (hitems' b hb) hab)
      simp only [innerText, Text.toList_listing, itemTexts_eq_map, List.cons_append,
        List.append_assoc, List.nil_append, List.cons.injEq, true_and] at h
      obtain ⟨rfl, hrest⟩ := happart.joined_append_inj ⟨']', rfl, by decide⟩ (by decide) h
      exact ⟨rfl, hrest⟩
    | _ => cases hopening
  | @map entries hvalues ih =>
    cases hw with
    | @map entries' hvalues' =>
      have happart : ToldApart entryText entries entries' := by
        refine ⟨fun a _ => not_stopsAt_entryText a, fun b _ => not_stopsAt_entryText b, ?_⟩
        intro a ha b hb r s hr hs hab
        refine entryText_append_inj (fun hr hs hvalue => ?_) hr hs hab
        exact ih a ha (hvalues' b hb) hr hs hvalue
          (opening?_eq_of_append_eq (hvalues a ha) (hvalues' b hb) hvalue)
      simp only [innerText, Text.toList_braced, entryTexts_eq_map, List.cons_append,
        List.append_assoc, List.nil_append, List.cons.injEq, true_and] at h
      obtain ⟨rfl, hrest⟩ := happart.joined_append_inj ⟨'}', rfl, by decide⟩ (by decide) h
      exact ⟨rfl, hrest⟩
    | _ => cases hopening

lemma text_eq_innerText (hv : v.kind = .sequence ∨ v.kind = .map) : v.text = innerText v := by
  cases v with
  | string s => simp [kind] at hv
  | _ => rfl

/-- **The text of a sequence or a map.**  Two values that are sequences or maps and have no numbers
with a fraction in them are equal if their texts are. -/
theorem eq_of_text_eq (hv : v.kind = .sequence ∨ v.kind = .map)
    (hw : w.kind = .sequence ∨ w.kind = .map) (hv' : FloatFree v) (hw' : FloatFree w)
    (h : v.text = w.text) : v = w := by
  rw [text_eq_innerText hv, text_eq_innerText hw] at h
  have hstop : StopsAt [','] := ⟨',', rfl, Or.inl rfl⟩
  exact (innerText_append_inj hv' hw' hstop hstop (by rw [h])).1

/-- A map with a quote in a key and with a text that looks like the end of the map, built once by
inserting its entries and once in their order. -/
theorem eq_of_text_eq_map :
    let row : Value := seq [string "\", 2]\x7d", int (-3), none, seq []]
    let v : Value := map (Dictionary.ofList [("b", bool true), ("a\"", row)])
    let w : Value := map [("a\"", row), ("b", bool true)]
    v.kind = .map ∧ w.kind = .map ∧ FloatFree v ∧ FloatFree w ∧ v.text = w.text ∧ v = w := by
  intro row v w
  have hrow : FloatFree row := by
    refine .seq fun u hu => ?_
    rcases List.mem_cons.1 hu with rfl | hu
    · exact .string _
    rcases List.mem_cons.1 hu with rfl | hu
    · exact .int _
    rcases List.mem_pair.1 hu with rfl | rfl
    · exact .none
    · exact .seq (by simp)
  have hw : FloatFree w := by
    refine .map fun entry hentry => ?_
    rcases List.mem_pair.1 hentry with rfl | rfl
    · exact hrow
    · exact .bool true
  have hv : FloatFree v := hw
  have htext : v.text = w.text := rfl
  exact ⟨rfl, rfl, hv, hw, htext, eq_of_text_eq (Or.inr rfl) (Or.inr rfl) hv hw htext⟩

/-- A text that is no part of anything is not quoted, so it can look like a sequence. -/
example : (string "[]").text = (seq []).text := rfl

end Value
end FormLetter

/-
# Marked lines

Which line an excerpt marks can be told from its text.  The rules and the rows are lines of their
own, and a row starts with its number and its mark, from which both can be read back
(`label_prefix_iff`).  So an excerpt marks the lines of its marked rows and no others
(`marksLine_page_iff`).

The excerpt of an error without a place is the one around the first line.  It marks this line,
although nothing is known of it (`marks_iff`).
-/
import FormLetter.Proofs.Digits
import FormLetter.Proofs.Excerpt.Places

namespace FormLetter

namespace Text

lemma parts_of_notMem {separator : Char} {cs : List Char} (h : separator ∉ cs) :
    parts separator cs = [cs] := by
  induction cs with
  | nil => rfl
  | cons c cs ih =>
    obtain ⟨hc, hcs⟩ := not_or.1 (List.mem_cons.not.1 h)
    simp only [parts, if_neg (Ne.symm hc), ih hcs]

/-- Texts that each end a line. -/
lemma parts_flatMap {separator : Char} {texts : List (List Char)}
    (h : ∀ text ∈ texts, separator ∉ text) (cs : List Char) :
    parts separator (texts.flatMap (· ++ [separator]) ++ cs) = texts ++ parts separator cs := by
  induction texts with
  | nil => rfl
  | cons text texts ih =>
    obtain ⟨htext, htexts⟩ := List.forall_mem_cons.1 h
    rw [List.flatMap_cons, List.append_assoc, List.append_assoc, List.singleton_append,
      parts_append_separator htext, ih htexts, List.cons_append]

end Text

namespace Excerpt

/-! ### Labels -/

/-- What a row starts with: its number, and its mark between two spaces. -/
def label (mark : Char) (number : Nat) : List Char :=
  padStart ' ' 4 (Nat.toDigits 10 number) ++ [' ', mark, ' ']

/-- The text marks the line of the given number: one of its lines starts with this number and the
mark. -/
def MarksLine (text : List Char) (number : Nat) : Prop :=
  ∃ line ∈ Text.parts '\n' text, label '>' number <+: line

/-- The line that a row takes up. -/
def Row.line (r : Row) : List Char := label r.mark r.number ++ r.text

lemma Row.written_eq (r : Row) : r.written = r.line ++ ['\n'] := by
  simp [written, row, line, label]

lemma space_notMem_toDigits (n : Nat) : ' ' ∉ Nat.toDigits 10 n :=
  Text.notMem_toDigits (by decide) (fun n => Nat.digitChar_ne ' ' rfl) n

/-- Without the spaces in front, a label is its number, a space, its mark and another space. -/
lemma dropWhile_label (mark : Char) (n : Nat) (cs : List Char) :
    (label mark n ++ cs).dropWhile (· = ' ') = Nat.toDigits 10 n ++ ' ' :: mark :: ' ' :: cs := by
  have hspace : ' ' ∉ Nat.toDigits 10 n := space_notMem_toDigits n
  obtain ⟨d, ds, hdigits⟩ := List.exists_cons_of_ne_nil (Nat.toDigits_ne_nil (b := 10) (n := n))
  have hd : d ≠ ' ' := fun hd => hspace (by rw [hdigits, hd]; exact List.mem_cons_self)
  rw [label, padStart, hdigits, List.append_assoc, List.append_assoc,
    List.dropWhile_append_of_pos (by simp)]
  simp [hd]

/-- The number and the mark of a row can be read off its line. -/
theorem label_prefix_iff {n : Nat} {r : Row} :
    label '>' n <+: r.line ↔ r.mark = '>' ∧ r.number = n := by
  constructor
  · rintro ⟨cs, hcs⟩
    have hdrop := congrArg (List.dropWhile (· = ' ')) hcs
    rw [Row.line, dropWhile_label, dropWhile_label] at hdrop
    -- the digits reach to the first space
    have hparts := congrArg (Text.parts ' ') hdrop
    rw [Text.parts_append_separator (space_notMem_toDigits _),
      Text.parts_append_separator (space_notMem_toDigits _)] at hparts
    have hdigits : Nat.toDigits 10 n = Nat.toDigits 10 r.number := (List.cons.inj hparts).1
    rw [hdigits] at hdrop
    have hmark := (List.cons.inj (List.cons.inj (List.append_cancel_left hdrop)).2).1
    exact ⟨hmark.symm, (Text.toDigits_inj (by decide) (by decide) hdigits).symm⟩
  · rintro ⟨hmark, rfl⟩
    rw [Row.line, hmark]
    exact List.prefix_append _ _

lemma not_prefix_of_notMem {n : Nat} {cs : List Char} (h : '>' ∉ cs) : ¬ label '>' n <+: cs := by
  intro hstart
  exact h (hstart.subset (by simp [label]))

/-! ### Marks on a page -/

lemma parts_page {rows : List Row} (h : ∀ r ∈ rows, '\n' ∉ r.line) :
    Text.parts '\n' ('\n' :: page rows) = [] :: rule title :: (rows.map Row.line ++ [rule []]) := by
  have htitle : '\n' ∉ rule title := by decide
  have hrule : '\n' ∉ rule [] := by decide
  have hrows : rows.flatMap Row.written = (rows.map Row.line).flatMap (· ++ ['\n']) := by
    rw [List.flatMap_map]
    exact List.flatMap_congr fun r _ => r.written_eq
  have hlines : ∀ line ∈ rows.map Row.line, '\n' ∉ line := by
    intro line hline
    obtain ⟨r, hr, rfl⟩ := List.mem_map.1 hline
    exact h r hr
  rw [Text.parts, if_pos rfl, page, Text.parts_append_separator htitle, hrows,
    Text.parts_flatMap hlines, Text.parts_of_notMem hrule]

/-- The marked lines are those of the marked rows. -/
theorem marksLine_page_iff {rows : List Row} (h : ∀ r ∈ rows, '\n' ∉ r.line) {n : Nat} :
    MarksLine ('\n' :: page rows) n ↔ ∃ r ∈ rows, r.mark = '>' ∧ r.number = n := by
  have htitle : '>' ∉ rule title := by decide
  have hrule : '>' ∉ rule [] := by decide
  rw [MarksLine, parts_page h]
  simp only [List.mem_cons, List.mem_append, List.mem_map, List.not_mem_nil, or_false]
  constructor
  · rintro ⟨line, rfl | rfl | ⟨r, hr, rfl⟩ | rfl, hlabel⟩
    · exact absurd hlabel (not_prefix_of_notMem List.not_mem_nil)
    · exact absurd hlabel (not_prefix_of_notMem htitle)
    · exact ⟨r, hr, label_prefix_iff.1 hlabel⟩
    · exact absurd hlabel (not_prefix_of_notMem hrule)
  · rintro ⟨r, hr, hmark⟩
    exact ⟨r.line, Or.inr (Or.inr (Or.inl ⟨r, hr, rfl⟩)), label_prefix_iff.2 hmark⟩

lemma IsWindow.feed_notMem {line : Nat} {source : String} {rows : List Row}
    (h : IsWindow line source rows) : ∀ r ∈ rows, '\n' ∉ r.line := by
  intro r hr
  have htext : '\n' ∉ r.text :=
    Text.feed_notMem_of_mem_lines (List.mem_of_getElem? (h.text_eq r hr))
  have hmark : r.mark ≠ '\n' := by
    rw [h.mark_eq r hr]
    split_ifs <;> decide
  have hdigits : '\n' ∉ Nat.toDigits 10 r.number :=
    Text.notMem_toDigits (by decide) (fun n => Nat.digitChar_ne '\n' rfl) _
  simp [Row.line, label, padStart, htext, hmark.symm, hdigits]

end Excerpt

namespace Error

/-- The excerpt below the message marks the line of the given number. -/
def Marks (e : Error) (number : Nat) : Prop :=
  ∃ excerpt, e.longMessage = e.message ++ excerpt ∧ Excerpt.MarksLine excerpt.toList number

/-- The excerpt of an error marks its line, or the first one if the error has no place. -/
theorem marks_iff {e : Error} {source : String} (h : e.source = some source) {n : Nat} :
    e.Marks n ↔ n = max 1 e.line ∧ n ≤ (Text.lines source.toList).length := by
  obtain ⟨rows, hrows, hwindow⟩ := Excerpt.exists_rows (le_max_left 1 e.line) source
  have haround : Excerpt.around e.line source = Excerpt.around (max 1 e.line) source := by
    have hindex : max 1 e.line - 1 = e.line - 1 := by omega
    simp only [Excerpt.around, hindex]
  have hlong : e.longMessage = e.message ++ ("\n" ++ String.ofList (Excerpt.page rows)) := by
    rw [longMessage, h, Option.elim_some, haround, hrows]
  have hpage : ("\n" ++ String.ofList (Excerpt.page rows)).toList = '\n' :: Excerpt.page rows := by
    simp
  rw [← hwindow.mem_mark_iff (le_max_left 1 e.line),
    ← Excerpt.marksLine_page_iff hwindow.feed_notMem, ← hpage, Marks, hlong]
  constructor
  · rintro ⟨excerpt, hexcerpt, hmarks⟩
    have hlists : e.message.toList ++ ("\n" ++ String.ofList (Excerpt.page rows)).toList =
        e.message.toList ++ excerpt.toList := by
      rw [← String.toList_append, hexcerpt, String.toList_append]
    rwa [List.append_cancel_left hlists]
  · exact fun hmarks => ⟨_, rfl, hmarks⟩

/-- Data without a value is the only reason why an error has no place. -/
lemma Arises.location_eq_none_iff {data : Datum} {name : String} {kinds : List ErrorKind} {e : Error}
    (h : e.Arises data name kinds) :
    e.location = none ↔ ∃ cause, Value.ofDatum data = .error cause := by
  cases h with
  | data h => exact ⟨fun _ => ⟨_, h⟩, fun _ => rfl⟩
  | template h comesFrom =>
    obtain ⟨line, hline⟩ := comesFrom.exists_line
    simp [hline, h]

end Error

namespace Environment

variable {env : Environment} {source : String} {data : Datum} {e e₀ : Error}

/-- What is marked in an error that is reported in debug mode. -/
lemma marks_report {name : String} {kinds : List ErrorKind} (hdebug : env.debug = true)
    (h : e₀.Arises data name kinds) (hplace : e₀.PlacedIn source) :
    ((env.report source e₀).location = none ↔ ∃ cause, Value.ofDatum data = .error cause) ∧
      ∀ n, (env.report source e₀).Marks n ↔
        n = (env.report source e₀).location.elim 1 Location.line ∧
          n ≤ (Text.lines source.toList).length := by
  have hsource : (env.report source e₀).source = some source := by
    rw [source_report source h.source_eq, if_pos hdebug]
  have hline : max 1 (env.report source e₀).line =
      (env.report source e₀).location.elim 1 Location.line := by
    rw [Error.line, location_report]
    cases hlocation : e₀.location with
    | none => rfl
    | some l => exact max_eq_right (hplace l hlocation).one_le
  refine ⟨?_, fun n => ?_⟩
  · rw [location_report]
    exact h.location_eq_none_iff
  · rw [Error.marks_iff hsource, hline]

/-- **Marks.**  In debug mode an error of a letter marks the line where it came up.  If it came up in
the data it marks the first line. -/
theorem marks_of_failed (hdebug : env.debug = true)
    (h : (∃ name letter, Letter.ofSource name source = .ok letter ∧
      env.render letter data = .error e) ∨ env.renderText source data = .error e) :
    (e.location = none ↔ ∃ cause, Value.ofDatum data = .error cause) ∧
      ∀ n, e.Marks n ↔ n = e.location.elim 1 Location.line ∧
        n ≤ (Text.lines source.toList).length := by
  rcases h with ⟨name, letter, hletter, h⟩ | h
  · have hplace := Error.placedIn_of_raisedBy (.kept hletter h)
    obtain ⟨e₀, rfl, harises⟩ := exists_of_render h
    obtain ⟨blocks, -, rfl⟩ := ofSource_eq_ok_iff.1 hletter
    refine marks_report hdebug harises fun l hl => hplace l ?_
    rwa [location_report]
  · have hplace := Error.placedIn_of_raisedBy (.unkept h)
    obtain ⟨e₀, rfl, harises⟩ := exists_of_renderText h
    refine marks_report hdebug harises fun l hl => hplace l ?_
    rwa [location_report]

/-- The name on the second line has no value. -/
theorem marks_of_failed_field :
    let source := "Dear\n\x7b\x7bname\x7d\x7d"
    let letter : Letter := ⟨"letter", source,
      [.text "Dear\n" ⟨.start, ⟨2, 0, 5⟩⟩, .field "name" ⟨⟨2, 0, 5⟩, ⟨2, 8, 13⟩⟩]⟩
    let e : Error :=
      { cause := .valueMissing "name", location := some ⟨"letter", 2⟩, source := some source }
    ({} : Environment).debug = true ∧ Letter.ofSource "letter" source = .ok letter ∧
      ({} : Environment).render letter .nothing = .error e ∧
      (e.location = none ↔ ∃ cause, Value.ofDatum .nothing = .error cause) ∧
        ∀ n, e.Marks n ↔ n = 2 ∧ n ≤ (Text.lines source.toList).length := by
  intro source letter e
  have hparse : Template.parse source "letter" = .ok letter.blocks := by
    unfold letter source
    rfl
  have hletter : Letter.ofSource "letter" source = .ok letter :=
    ofSource_eq_ok_iff.2 ⟨_, hparse, rfl⟩
  have hrender : ({} : Environment).render letter .nothing = .error e := rfl
  exact ⟨rfl, hletter, hrender, marks_of_failed rfl (.inl ⟨"letter", letter, hletter, hrender⟩)⟩

/-- The data has no value, so the error has no place, and yet its excerpt marks the first line. -/
theorem marks_without_place :
    let data : Datum := .failure "no"
    let e : Error := { cause := .failure "no", source := some "Hello" }
    ({} : Environment).debug = true ∧ ({} : Environment).renderText "Hello" data = .error e ∧
      e.location = none ∧ e.Marks 1 :=
  ⟨rfl, rfl, rfl, (Error.marks_iff rfl).2 ⟨by decide, by decide⟩⟩

end Environment
end FormLetter

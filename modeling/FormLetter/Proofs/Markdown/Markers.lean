/-
# Markdown tokens written out

Nothing of a markdown text is lost when it is cut into tokens, except how its lines end: the tokens,
written out, are the text with a single line feed at the end of each line (`written_read`).  So the
space that a marker takes up is missed nowhere, and none is put in.

The markers stand where they belong.  A token can only stand at certain places of its line, and the
tokens that are read keep to that (`isChain_read`): an item token is the first one on its line, and so
is the first heading token of a run.  Conversely, a text is read afresh from the start of each of its
lines (`read_append`), so a line that starts with a marker has the tokens of that marker
(`faithful`).
-/
import FormLetter.Proofs.Markdown.Lines
import Mathlib.Data.List.Chain

namespace FormLetter
namespace Markdown

/-- A text with a single line feed at the end of each line. -/
def plainEnds : List Char → List Char
  | [] => []
  | '\r' :: '\n' :: cs => '\n' :: plainEnds cs
  | c :: cs => c :: plainEnds cs

/-- What stands behind comes first on its line: there is nothing in front of it, or the end of a
line. -/
def AtLineStart {α : Type} (lineEnd : α) (front : List α) : Prop :=
  ∀ last ∈ front.getLast?, last = lineEnd

namespace Token

/-- Tokens written out.  The space of a heading stands behind its last token. -/
def written : List Token → List Char
  | [] => []
  | heading :: ts =>
    if ts.head? = some heading then '#' :: written ts else '#' :: ' ' :: written ts
  | item :: ts => '*' :: ' ' :: written ts
  | lineBreak :: ts => '\n' :: written ts
  | letter c :: ts => c :: written ts

/-- The place that the token can stand at. -/
def FitsAt (place : Place) : Token → Prop
  | heading => place ≠ .inLine
  | item => place = .lineStart
  | lineBreak => True
  | letter _ => True

/-- The place behind a token, if nothing more is known of what was in front of it. -/
def placeBehind : Token → Place
  | heading => .marker
  | item => .inLine
  | lineBreak => .lineStart
  | letter _ => .inLine

/-! ### Places of tokens -/

lemma FitsAt.of_inLine {t : Token} (h : t.FitsAt .inLine) (place : Place) : t.FitsAt place := by
  cases t with
  | heading => exact absurd rfl h
  | item => cases h
  | lineBreak => trivial
  | letter c => trivial

/-- The first token fits at the place of the text. -/
lemma fitsAt_of_head? (place : Place) (cs : List Char) :
    ∀ t ∈ (read place cs).head?, t.FitsAt place := by
  fun_cases read place cs with
  | case6 place cs hplace => simpa [FitsAt] using hplace
  | case7 place c cs _ _ _ _ hmark => simpa [FitsAt] using hmark.2.1
  | _ => simp [FitsAt]

/-- Each token fits behind the one in front of it. -/
theorem isChain_read (place : Place) (cs : List Char) :
    (read place cs).IsChain fun t u => u.FitsAt t.placeBehind := by
  fun_induction read place cs with
  | case1 place => exact List.isChain_nil
  | case2 place cs ih => exact List.isChain_cons.2 ⟨fitsAt_of_head? .lineStart cs, ih⟩
  | case3 place cs ih => exact List.isChain_cons.2 ⟨fitsAt_of_head? .lineStart cs, ih⟩
  | case4 cs ih => exact List.isChain_cons.2 ⟨fitsAt_of_head? .inLine cs, ih⟩
  | case5 cs ih =>
    refine List.isChain_cons.2 ⟨by simp [FitsAt], ?_⟩
    exact List.isChain_cons.2 ⟨fitsAt_of_head? .inLine cs, ih⟩
  | case6 place cs _ ih =>
    refine List.isChain_cons.2 ⟨fun t ht => ?_, ih⟩
    exact (fitsAt_of_head? .inLine cs t ht).of_inLine _
  | case7 place c cs _ _ _ _ _ ih => exact List.isChain_cons.2 ⟨fitsAt_of_head? .marker cs, ih⟩
  | case8 place c cs _ _ _ _ _ ih => exact List.isChain_cons.2 ⟨fitsAt_of_head? .inLine cs, ih⟩

/-- What is in front of a token on its line leaves room for it. -/
lemma fitsAt_of_eq_append {place : Place} {cs : List Char} {us vs : List Token} {t u : Token}
    (h : read place cs = us ++ t :: vs) (hu : u ∈ us.getLast?) : t.FitsAt u.placeBehind := by
  have hchain := isChain_read place cs
  rw [h] at hchain
  exact (List.isChain_append.1 hchain).2.2 u hu t rfl

/-! ### Writing out what was read -/

lemma plainEnds_cons {c : Char} {cs : List Char} (hreturn : ∀ ds, c = '\r' → cs = '\n' :: ds → False) :
    plainEnds (c :: cs) = c :: plainEnds cs := by
  rw [plainEnds]
  exact hreturn

lemma head?_read_inLine (cs : List Char) : (read .inLine cs).head? ≠ some heading :=
  fun h => fitsAt_of_head? .inLine cs heading h rfl

/-- A marker that goes on does so with a heading token. -/
lemma head?_read_marker {place : Place} {cs : List Char} (hplace : place ≠ .inLine)
    (hspace : ∀ ds, cs = ' ' :: ds → False) (hcontinues : continuesMarker cs = true) :
    (read place cs).head? = some heading := by
  rw [Line.continuesMarker_eq, Option.isSome_iff_exists] at hcontinues
  obtain ⟨⟨further, title⟩, hmarker⟩ := hcontinues
  obtain rfl := Line.marker?_eq_some_iff.1 hmarker
  cases further with
  | zero => exact (hspace title rfl).elim
  | succ further =>
    rw [List.replicate_succ, List.cons_append, read_marker hplace]
    rfl

/-- The tokens of a text, written out, are the text with plain line ends. -/
theorem written_read (place : Place) (cs : List Char) : written (read place cs) = plainEnds cs := by
  fun_induction read place cs with
  | case1 place => rfl
  | case2 place cs ih => simp [written, plainEnds, ih]
  | case3 place cs ih => simp [written, plainEnds, ih]
  | case4 cs ih => simp [written, plainEnds, ih]
  | case5 cs ih => simp [written, plainEnds, ih]
  | case6 place cs _ ih => simp [written, plainEnds, ih, head?_read_inLine]
  | case7 place c cs _ _ _ hspace hmark ih =>
    obtain ⟨rfl, -, hcontinues⟩ := hmark
    have hhead : (read .marker cs).head? = some heading :=
      head?_read_marker (by decide) (fun ds => hspace ds rfl) hcontinues
    rw [written, if_pos hhead, ih, plainEnds_cons (by simp)]
  | case8 place c cs _ hreturn _ _ _ ih => rw [written, ih, plainEnds_cons hreturn]

end Token

/-! ### Starts of lines -/

lemma AtLineStart.of_cons {α : Type} {lineEnd a : α} {front : List α}
    (h : AtLineStart lineEnd (a :: front)) : AtLineStart lineEnd front := by
  intro last hlast
  exact h last (by simp [List.getLast?_cons, Option.mem_def.1 hlast])

/-- The lines of a text up to the start of a line, and of what is behind it. -/
lemma Line.exists_cut_append {cs : List Char} (h : AtLineStart '\n' cs) :
    ∃ lines, (cs ≠ [] → lines ≠ []) ∧ ∀ ds, cut (cs ++ ds) = lines ++ cut ds := by
  fun_induction cut cs with
  | case1 => exact ⟨[], by simp, fun ds => rfl⟩
  | case2 cs ih =>
    obtain ⟨lines, -, hcut⟩ := ih h.of_cons
    exact ⟨[] :: lines, by simp, fun ds => by simp [cut, hcut]⟩
  | case3 cs ih =>
    obtain ⟨lines, -, hcut⟩ := ih h.of_cons.of_cons
    exact ⟨[] :: lines, by simp, fun ds => by simp [cut, hcut]⟩
  | case4 c cs hfeed hreturn ih =>
    -- the line of the first character goes on, since it does not end here
    obtain ⟨d, cs, rfl⟩ : ∃ d ds, cs = d :: ds := by
      refine List.exists_cons_of_ne_nil fun hnil => hfeed (h c ?_)
      simp [hnil]
    obtain ⟨lines, hne, hcut⟩ := ih h.of_cons
    obtain ⟨line, lines, rfl⟩ := List.exists_cons_of_ne_nil (hne (by simp))
    refine ⟨(c :: line) :: lines, by simp, fun ds => ?_⟩
    rw [List.cons_append, cut_cons hfeed, hcut]
    · rfl
    · rintro es hc hes
      exact hreturn cs hc (by rw [(List.cons.inj hes).1])

namespace Token

/-- A text is read afresh from the start of a line, and there a line of tokens starts. -/
theorem read_append {front : List Char} (h : AtLineStart '\n' front) (cs : List Char) :
    read .lineStart (front ++ cs) = read .lineStart front ++ read .lineStart cs ∧
      AtLineStart lineBreak (read .lineStart front) := by
  obtain ⟨lines, hne, hcut⟩ := Line.exists_cut_append h
  cases lines with
  | nil =>
    obtain rfl : front = [] := by
      by_contra hfront
      exact hne hfront rfl
    simp [AtLineStart, read]
  | cons line lines =>
    -- the tokens of the lines end with a line break, whatever is behind them
    have hread (ds : List Char) : read .lineStart (front ++ ds) = (read .lineStart line ++
        lines.flatMap fun l => lineBreak :: read .lineStart l) ++ lineBreak :: read .lineStart ds := by
      obtain ⟨first, rest, ending, hds, -⟩ := Line.exists_cut ds
      rw [read_of_cut .lineStart _ (hcut ds), read_of_cut .lineStart ds hds, hds]
      simp
    have hfront := hread []
    rw [List.append_nil, read] at hfront
    rw [hread, hfront]
    simp [AtLineStart]

/-- The tokens of the text say all that is in it, and say it at the right places. -/
structure Faithful (text : String) : Prop where
  /-- Written out, the tokens are the text, except for how its lines end. -/
  written_eq : written (ofText text) = plainEnds text.toList
  /-- A run of heading tokens starts at the start of a line. -/
  heading_first : ∀ us vs, ofText text = us ++ heading :: vs → us.getLast? ≠ some heading →
    AtLineStart lineBreak us
  /-- An item token stands at the start of a line. -/
  item_first : ∀ us vs, ofText text = us ++ item :: vs → AtLineStart lineBreak us
  /-- Of a line that starts with some `#` and a space there are as many heading tokens, in the place
  of that line among the tokens and not one more. -/
  heading_of_line : ∀ front further title, AtLineStart '\n' front →
    text.toList = front ++ List.replicate (further + 1) '#' ++ ' ' :: title →
    ∃ us vs, ofText text = us ++ List.replicate (further + 1) heading ++ vs ∧
      AtLineStart lineBreak us ∧ vs.head? ≠ some heading ∧
      written us = plainEnds front ∧ written vs = plainEnds title
  /-- Of a line that starts with `* ` there is an item token, in the place of that line. -/
  item_of_line : ∀ front words, AtLineStart '\n' front →
    text.toList = front ++ '*' :: ' ' :: words →
    ∃ us vs, ofText text = us ++ item :: vs ∧ AtLineStart lineBreak us ∧
      written us = plainEnds front ∧ written vs = plainEnds words

/-- **Markers.**  The tokens of a markdown text give it back up to its line ends, and there are
markers at the start of the lines that they stand on in the text, and nowhere else. -/
theorem faithful (text : String) : Faithful text where
  written_eq := written_read .lineStart text.toList
  heading_first := by
    intro us vs h hrun last hlast
    have hfits := fitsAt_of_eq_append h hlast
    cases last with
    | heading => exact absurd hlast hrun
    | item => exact absurd rfl hfits
    | lineBreak => rfl
    | letter c => exact absurd rfl hfits
  item_first := by
    intro us vs h last hlast
    have hfits := fitsAt_of_eq_append h hlast
    cases last with
    | heading => cases hfits
    | item => cases hfits
    | lineBreak => rfl
    | letter c => cases hfits
  heading_of_line := by
    intro front further title hfront htext
    obtain ⟨happend, hstart⟩ := read_append hfront (List.replicate (further + 1) '#' ++ ' ' :: title)
    rw [List.replicate_succ, List.cons_append, read_marker (by decide)] at happend
    refine ⟨read .lineStart front, read .inLine title, ?_, hstart, head?_read_inLine title,
      written_read _ _, written_read _ _⟩
    rw [ofText, htext, List.append_assoc, List.append_assoc, ← happend]
    rfl
  item_of_line := by
    intro front words hfront htext
    obtain ⟨happend, hstart⟩ := read_append hfront ('*' :: ' ' :: words)
    refine ⟨read .lineStart front, read .inLine words, ?_, hstart, written_read _ _,
      written_read _ _⟩
    rw [ofText, htext, happend, read]

/-- The second `#` of the second line belongs to no marker, and neither does anything in the last
one.  A carriage return is lost only in front of a line feed. -/
example : ofText "## a\r\n# #\n#b* \r" =
      [.heading, .heading, .letter 'a', .lineBreak, .heading, .letter '#', .lineBreak, .letter '#',
        .letter 'b', .letter '*', .letter ' ', .letter '\r'] ∧
    written (ofText "## a\r\n# #\n#b* \r") = "## a\n# #\n#b* \r".toList := by
  decide

end Token
end Markdown
end FormLetter

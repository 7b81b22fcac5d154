/-
# Markdown texts with a blank line between them

A blank line ends whatever is being read, so two texts with an empty line between them have the
blocks of the first text and then those of the second (`ofText_append_blankLine`).  Only a carriage
return at the end of the first text would be taken for a part of the line end.  On the page the two
texts stand one below the other, or the list at the end of the first one goes on with the list at the
start of the second (`separated_of_blankLine`).
-/
import FormLetter.Proofs.Markdown.Elements
import FormLetter.Proofs.Markdown.Folding

namespace FormLetter
namespace Markdown

/-! ### Tokens -/

namespace Line

/-- The lines of two texts with a line feed between them. -/
lemma cut_append {cs : List Char} (h : cs.getLast? ≠ some '\r') (ds : List Char) :
    cut (cs ++ '\n' :: ds) = cut cs ++ cut ds := by
  have htail (c : Char) (cs : List Char) (h : (c :: cs).getLast? ≠ some '\r') :
      cs.getLast? ≠ some '\r' := fun hlast => h (by simp [List.getLast?_cons, hlast])
  fun_induction cut cs with
  | case1 => simp [cut]
  | case2 cs ih => simp [cut, ih (htail _ _ h)]
  | case3 cs ih => simp [cut, ih (htail _ _ (htail _ _ h))]
  | case4 c cs hfeed hreturn ih =>
    -- the line feed behind the text belongs to the character in front of it only if that is a return
    have hreturn' : ∀ es, c = '\r' → cs ++ '\n' :: ds = '\n' :: es → False := by
      intro es hc hes
      cases cs with
      | nil => exact h (by simp [hc])
      | cons d cs => exact hreturn cs hc (by rw [(List.cons.inj hes).1])
    obtain ⟨line, rest, ending, hcut, -⟩ := exists_cut cs
    rw [List.cons_append, cut_cons hfeed hreturn', ih (htail _ _ h), hcut]
    rfl

lemma exists_ofText (text : String) : ∃ line lines, ofText text = line :: lines := by
  obtain ⟨line, rest, ending, hcut, -⟩ := exists_cut text.toList
  exact ⟨ofChars line, rest.map ofChars, by rw [ofText, hcut, List.map_cons]⟩

end Line

namespace Token

variable {a : String}

/-- The tokens of two texts with a line feed between them. -/
lemma ofText_append (h : a.toList.getLast? ≠ some '\r') (b : String) :
    ofText (a ++ "\n" ++ b) = ofText a ++ lineBreak :: ofText b := by
  obtain ⟨line, lines, hlines⟩ := Line.exists_ofText a
  obtain ⟨line', lines', hlines'⟩ := Line.exists_ofText b
  have hall : Line.ofText (a ++ "\n" ++ b) = line :: (lines ++ line' :: lines') := by
    have htext : (a ++ "\n" ++ b).toList = a.toList ++ '\n' :: b.toList := by simp
    rw [Line.ofText, htext, Line.cut_append h, List.map_append]
    exact congrArg₂ (· ++ ·) hlines hlines'
  rw [ofText_eq_lines _ hall, ofText_eq_lines _ hlines, ofText_eq_lines _ hlines']
  simp [Line.tokensBehind]

lemma ofText_append_blankLine (h : a.toList.getLast? ≠ some '\r') (b : String) :
    ofText (a ++ "\n\n" ++ b) = ofText a ++ lineBreak :: lineBreak :: ofText b := by
  have htext : a ++ "\n\n" ++ b = a ++ "\n" ++ ("\n" ++ b) := by
    rw [show "\n\n" = "\n" ++ "\n" from rfl]
    simp only [String.append_assoc]
  have hfeed : ofText ("\n" ++ b) = lineBreak :: ofText b := by simp [ofText, read]
  rw [htext, ofText_append h, hfeed]

end Token

/-! ### Blocks -/

namespace Block

/-- The blocks of a text. -/
def ofText (text : String) : List Block := ofTokens (Token.ofText text)

/-- A blank line finishes the block that is being read. -/
lemma behind_blankLine (d : Draft) (us : List Token) :
    behind d (.lineBreak :: .lineBreak :: us) = d.finish ++ behind .none us := by
  have hnone : behind .none (.lineBreak :: us) = behind .none us := behind_none_cons .lineBreak us
  cases d with
  | none => rw [behind_none_cons, Draft.start, hnone, Draft.finish, List.nil_append]
  | heading level line =>
    have hline : (Draft.heading level line).extend .lineBreak = none := by cases line <;> rfl
    rw [behind_eq_finish (by simpa using hline), behind_none_cons, Draft.start, hnone]
  | flow kind text line =>
    have hpause : behind (.flow kind text line) (.lineBreak :: .lineBreak :: us) =
        behind (.pause kind (addLine text line.reverse)) (.lineBreak :: us) := rfl
    rw [hpause, behind_eq_finish (by simp [Draft.extend]), hnone]
    rfl
  | pause kind text =>
    rw [behind_eq_finish (by simp [Draft.extend]), behind_none_cons, Draft.start, hnone]

/-- What is behind a blank line is read as if nothing was in front of it. -/
theorem behind_append_blankLine (d : Draft) (ts us : List Token) :
    behind d (ts ++ .lineBreak :: .lineBreak :: us) = behind d ts ++ behind .none us := by
  induction ts generalizing d with
  | nil => exact behind_blankLine d us
  | cons t ts ih =>
    rw [List.cons_append, behind, behind]
    cases d.extend t with
    | none => simp only [ih, List.append_assoc]
    | some next => exact ih next

lemma ofText_append_blankLine {a : String} (h : a.toList.getLast? ≠ some '\r') (b : String) :
    ofText (a ++ "\n\n" ++ b) = ofText a ++ ofText b := by
  rw [ofText, Token.ofText_append_blankLine h]
  exact behind_append_blankLine .none _ _

end Block

/-! ### Pages -/

/-- The two texts with an empty line between them are read, and shown, one behind the other. -/
structure Separated (a b : String) : Prop where
  blocks_eq : Block.ofText (a ++ "\n\n" ++ b) = Block.ofText a ++ Block.ofText b
  html_of_left_nil : Block.ofText a = [] → toHtml (a ++ "\n\n" ++ b) = toHtml b
  html_of_right_nil : Block.ofText b = [] → toHtml (a ++ "\n\n" ++ b) = toHtml a
  /-- The texts stand on lines of their own, unless an item comes last in the one and first in the
  other. -/
  html_of_apart : Block.ofText a ≠ [] → Block.ofText b ≠ [] →
    ¬ ((∃ last, (Block.ofText a).getLast? = some (.item last)) ∧
      ∃ first, (Block.ofText b).head? = some (.item first)) →
    toHtml (a ++ "\n\n" ++ b) = toHtml a ++ "\n" ++ toHtml b
  /-- In that case the two lists are one. -/
  html_of_items : ∀ last first, (Block.ofText a).getLast? = some (.item last) →
    (Block.ofText b).head? = some (.item first) →
    ∃ front behind, toHtml a = front ++ "</ul>" ∧ toHtml b = "<ul>" ++ behind ∧
      toHtml (a ++ "\n\n" ++ b) = front ++ behind

/-- **Documents.**  A blank line separates two markdown texts. -/
theorem separated_of_blankLine {a : String} (h : a.toList.getLast? ≠ some '\r') (b : String) :
    Separated a b := by
  have hblocks := Block.ofText_append_blankLine h b
  have hhtml : toHtml (a ++ "\n\n" ++ b) = html (Block.ofText a ++ Block.ofText b) :=
    congrArg html hblocks
  refine ⟨hblocks, fun ha => ?_, fun hb => ?_, fun ha hb happart => ?_, fun last first ha hb => ?_⟩
  · rw [hhtml, ha]
    rfl
  · rw [hhtml, hb, List.append_nil]
    rfl
  · rw [hhtml]
    refine html_append_of_apart ha hb fun hitems => happart ?_
    exact ⟨Block.map_isItem_eq_some_true_iff.1 hitems.1, Block.map_isItem_eq_some_true_iff.1 hitems.2⟩
  · rw [hhtml]
    exact html_append_of_items (Block.map_isItem_eq_some_true_iff.2 ⟨last, ha⟩)
      (Block.map_isItem_eq_some_true_iff.2 ⟨first, hb⟩)

/-- The first text ends in an item and the second one starts with an item, so they share a list. -/
theorem separated_of_blankLine_items :
    "one\n* two".toList.getLast? ≠ some '\r' ∧ Separated "one\n* two" "* three\nfour" ∧
      toHtml "one\n* two\n\n* three\nfour" =
        "<p>one</p>\n<ul><li>two</li><li>three four</li></ul>" := by
  refine ⟨by decide, separated_of_blankLine (by decide) _, by decide⟩

/-- In front of the line feeds the carriage return is a part of the line end, and no text. -/
example : Block.ofText "\r" = [.paragraph ""] ∧ Block.ofText ("\r" ++ "\n\n" ++ "") = [] := by
  decide

end Markdown
end FormLetter

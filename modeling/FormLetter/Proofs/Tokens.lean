/-
# Tokens that keep apart

Tokens are cut greedily, so a token changes if the wrong character comes to stand behind it: a
plain delimiter grows by a third brace, and a brace that stands alone grows by a second one.
`extension?` is that character, and two tokens keep apart if the second one does not start with the
extension of the first.  Between them this is all that matters for how a text is cut:

* the tokens of a text keep apart from their neighbours (`isChain_ofText`);
* tokens that keep apart are the tokens of the text that they make up (`ofText_flatMap_text`), and no
  others are (`ofText_flatMap_text_eq_self_iff`);
* a text in two parts has the tokens of the first part and then those of the second, unless two
  equal braces meet at the seam (`ofText_append`).
-/
import FormLetter.Template.Cursor
import Mathlib.Data.List.Chain

namespace FormLetter
namespace Template
namespace Token

/-- The character that would become part of the token if it stood behind it. -/
def extension? : Token → Option Char
  | character c => if c = '{' ∨ c = '}' then some c else none
  | opening .plain => some '{'
  | closing .plain => some '}'
  | opening .markdown => none
  | closing .markdown => none

/-- The second token does not go on with the first one. -/
def Apart (t u : Token) : Prop := ∀ c ∈ t.extension?, c ∉ u.text.head?

@[simp] lemma text_ne_nil (t : Token) : t.text ≠ [] := by
  cases t with
  | character c => simp [text]
  | opening fence => cases fence <;> simp [text, Fence.opening]
  | closing fence => cases fence <;> simp [text, Fence.closing]

lemma head?_text_append (t : Token) (cs : List Char) : (t.text ++ cs).head? = t.text.head? :=
  List.head?_append_of_ne_nil _ (text_ne_nil t)

lemma extension?_eq_some_iff {t : Token} {c : Char} :
    t.extension? = some c ↔
      (c = '{' ∧ (t = character '{' ∨ t = opening .plain)) ∨
        (c = '}' ∧ (t = character '}' ∨ t = closing .plain)) := by
  cases t with
  | character d =>
    simp only [extension?, Option.ite_none_right_eq_some, Option.some.injEq, character.injEq,
      reduceCtorEq, or_false]
    constructor
    · rintro ⟨rfl | rfl, rfl⟩
      · exact Or.inl ⟨rfl, rfl⟩
      · exact Or.inr ⟨rfl, rfl⟩
    · rintro (⟨rfl, rfl⟩ | ⟨rfl, rfl⟩)
      · exact ⟨Or.inl rfl, rfl⟩
      · exact ⟨Or.inr rfl, rfl⟩
  | opening fence => cases fence <;> simp [extension?, eq_comm]
  | closing fence => cases fence <;> simp [extension?, eq_comm]

/-- The last character of a token that can be extended is the one that extends it. -/
lemma getLast?_text {t : Token} {c : Char} (h : c ∈ t.extension?) : t.text.getLast? = some c := by
  rcases extension?_eq_some_iff.1 h with ⟨rfl, rfl | rfl⟩ | ⟨rfl, rfl | rfl⟩ <;> rfl

/-- A token keeps apart from the tokens behind it if their text does not extend it. -/
lemma isChain_cons_iff {t : Token} {ts : List Token} :
    (t :: ts).IsChain Apart ↔
      (∀ c ∈ t.extension?, c ∉ (ts.flatMap text).head?) ∧ ts.IsChain Apart := by
  rw [List.isChain_cons]
  refine and_congr_left fun _ => ?_
  cases ts with
  | nil => simp
  | cons u ts =>
    rw [List.flatMap_cons, head?_text_append]
    simp [Apart]

/-! ### From a text to its tokens and back -/

lemma ofText_character {c : Char} {cs : List Char}
    (h : ∀ d ∈ (character c).extension?, d ∉ cs.head?) :
    ofText (c :: cs) = character c :: ofText cs := by
  rw [ofText]
  all_goals
    rintro ds rfl rfl
    simp [extension?] at h

/-- The first token of a text, if what follows does not extend it. -/
lemma ofText_text_append {t : Token} {cs : List Char} (h : ∀ c ∈ t.extension?, c ∉ cs.head?) :
    ofText (t.text ++ cs) = t :: ofText cs := by
  match t with
  | character c => exact ofText_character h
  | opening .markdown => simp [text, Fence.opening, ofText]
  | closing .markdown => simp [text, Fence.closing, ofText]
  | opening .plain =>
    simp only [text, Fence.opening, List.cons_append, List.nil_append]
    rw [ofText]
    rintro ds rfl
    simp [extension?] at h
  | closing .plain =>
    simp only [text, Fence.closing, List.cons_append, List.nil_append]
    rw [ofText]
    rintro ds rfl
    simp [extension?] at h

/-- Tokens that keep apart are the tokens of the text that they make up. -/
theorem ofText_flatMap_text {ts : List Token} (h : ts.IsChain Apart) :
    ofText (ts.flatMap text) = ts := by
  induction ts with
  | nil => rfl
  | cons t ts ih =>
    rw [isChain_cons_iff] at h
    rw [List.flatMap_cons, ofText_text_append h.1, ih h.2]

lemma not_mem_head?_iff {c : Char} {cs : List Char} : c ∉ cs.head? ↔ ∀ ds, cs ≠ c :: ds := by
  cases cs with
  | nil => simp
  | cons d cs => simp [eq_comm]

/-- The tokens of a text keep apart. -/
theorem isChain_ofText (cs : List Char) : (ofText cs).IsChain Apart := by
  fun_induction ofText cs with
  | case1 cs ih => exact isChain_cons_iff.2 ⟨by simp [extension?], ih⟩
  | case2 cs hne ih =>
    refine isChain_cons_iff.2 ⟨?_, ih⟩
    rw [ofText_text]
    rintro _ ⟨rfl⟩
    exact not_mem_head?_iff.2 hne
  | case3 cs ih => exact isChain_cons_iff.2 ⟨by simp [extension?], ih⟩
  | case4 cs hne ih =>
    refine isChain_cons_iff.2 ⟨?_, ih⟩
    rw [ofText_text]
    rintro _ ⟨rfl⟩
    exact not_mem_head?_iff.2 hne
  | case5 c cs h1 hopen h3 hclose ih =>
    refine isChain_cons_iff.2 ⟨?_, ih⟩
    rw [ofText_text]
    intro d hd
    simp only [extension?, Option.mem_def, Option.ite_none_right_eq_some, Option.some.injEq] at hd
    obtain ⟨hbrace, rfl⟩ := hd
    rw [not_mem_head?_iff]
    intro ds hcs
    rcases hbrace with rfl | rfl
    · exact hopen ds rfl hcs
    · exact hclose ds rfl hcs
  | case6 => exact List.isChain_nil

/-! ### Texts in two parts -/

/-- The two characters are braces that would become one delimiter if they stood side by side. -/
def Joins (c d : Char) : Prop := c = d ∧ (c = '{' ∨ c = '}')

lemma joins_of_extension {t : Token} {c : Char} (h : c ∈ t.extension?) : Joins c c := by
  rcases extension?_eq_some_iff.1 h with ⟨rfl, -⟩ | ⟨rfl, -⟩
  · exact ⟨rfl, Or.inl rfl⟩
  · exact ⟨rfl, Or.inr rfl⟩

/-- The tokens of a text in two parts, if no delimiter forms at the seam. -/
theorem ofText_append {cs ds : List Char}
    (h : ∀ c ∈ cs.getLast?, ∀ d ∈ ds.head?, ¬ Joins c d) :
    ofText (cs ++ ds) = ofText cs ++ ofText ds := by
  -- if a token at the seam extended the other one, their characters would join
  have hchain : (ofText cs ++ ofText ds).IsChain Apart := by
    refine (isChain_ofText cs).append (isChain_ofText ds) ?_
    intro t ht u hu c hc hcu
    -- the last token ends with `c`, which is thus the last character of the first part
    have hlast : cs.getLast? = some c := by
      obtain ⟨ts, hts⟩ := List.getLast?_eq_some_iff.1 ht
      have htext := ofText_text cs
      rw [hts] at htext
      rw [← htext, List.flatMap_append, List.flatMap_singleton,
        List.getLast?_append_of_ne_nil _ (text_ne_nil t)]
      exact getLast?_text hc
    have hfirst : ds.head? = some c := by
      have htext := ofText_text ds
      obtain ⟨us, hus⟩ := List.head?_eq_some_iff.1 hu
      rw [hus, List.flatMap_cons] at htext
      rw [← htext, head?_text_append]
      exact hcu
    exact h c hlast c hfirst (joins_of_extension hc)
  have htext := ofText_flatMap_text hchain
  rwa [List.flatMap_append, ofText_text, ofText_text] at htext

/-! ### Rows of tokens that can be written down -/

/-- Written one behind the other the tokens run into each other: the first one is a brace that
stands alone or a plain delimiter, and the second one starts with the same brace. -/
def Glued (t u : Token) : Prop :=
  ((t = character '{' ∨ t = opening .plain) ∧ u.text.head? = some '{') ∨
    ((t = character '}' ∨ t = closing .plain) ∧ u.text.head? = some '}')

/-- Tokens keep apart unless they run into each other. -/
lemma apart_iff_not_glued {t u : Token} : Apart t u ↔ ¬ Glued t u := by
  constructor
  · rintro h (⟨ht, hu⟩ | ⟨ht, hu⟩)
    · exact h '{' (extension?_eq_some_iff.2 (Or.inl ⟨rfl, ht⟩)) hu
    · exact h '}' (extension?_eq_some_iff.2 (Or.inr ⟨rfl, ht⟩)) hu
  · intro h c hc hu
    rcases extension?_eq_some_iff.1 hc with ⟨rfl, ht⟩ | ⟨rfl, ht⟩
    · exact h (Or.inl ⟨ht, hu⟩)
    · exact h (Or.inr ⟨ht, hu⟩)

/-- **Rows of tokens that survive.**  A row of tokens is read back from the text that it makes up
just in case no two neighbours run into each other. -/
theorem ofText_flatMap_text_eq_self_iff (ts : List Token) :
    ofText (ts.flatMap text) = ts ↔
      ∀ before t u after, ts = before ++ t :: u :: after → ¬ Glued t u := by
  constructor
  · intro hread before t u after hts
    have hchain : ts.IsChain Apart := by
      rw [← hread]
      exact isChain_ofText _
    exact apart_iff_not_glued.1 (List.isChain_iff_forall_rel_of_append_cons_cons.1 hchain hts)
  · intro h
    have hchain : ts.IsChain Apart := by
      rw [List.isChain_iff_forall_rel_of_append_cons_cons]
      intro t u before after hts
      exact apart_iff_not_glued.2 (h before t u after hts)
    exact ofText_flatMap_text hchain

/-- A brace makes the plain delimiter behind it a delimiter of markdown, and that one leaves the next
brace alone. -/
example : ofText ([character '{', opening .plain, character '{'].flatMap text) =
    [opening .markdown, character '{'] := rfl

end Token
end Template
end FormLetter

/-
# The HTML of blocks determines the blocks

The HTML of an element starts with a tag that says what the element is, and as long as no text
contains a `<`, it can be seen where each text ends.  So the HTML determines the element and where it
ends, whatever is behind it (`html_append_inj`); nothing in it is mistaken for the tag that closes the
element, and the last item of a list is told from an item that another one follows.

A page is then read back element by element (`eq_of_page_eq`), and the elements give back the blocks
that they are made of (`flatMap_blocks_ofBlocks`), so the page determines its blocks
(`eq_of_html_eq`).
-/
import FormLetter.Proofs.Markdown.Characters

namespace FormLetter
namespace Markdown
namespace Element

/-- No text of the element contains a `<`, so none is mistaken for a tag. -/
def Untagged (e : Element) : Prop := ∀ text ∈ e.texts, '<' ∉ text.toList

variable {e f : Element} {r s : List Char}

/-! ### Names -/

lemma toList_name_heading (level : Nat) (text : String) :
    (heading level text).name.toList = 'h' :: Nat.toDigits 10 level := by
  simp [name]

lemma level_eq_of_name_eq {level level' : Nat} {text text' : String}
    (h : (heading level text).name = (heading level' text').name) : level = level' := by
  have hchars := congrArg String.toList h
  rw [toList_name_heading, toList_name_heading] at hchars
  exact Text.toDigits_inj (by decide) (by decide) (List.cons.inj hchars).2

/-- The name of a heading starts as no other name does. -/
lemma name_heading_ne {level : Nat} {text name : String} (hname : name.toList.head? ≠ some 'h') :
    (heading level text).name ≠ name := by
  rintro rfl
  exact hname (by rw [toList_name_heading]; rfl)

/-! ### Elements -/

lemma toList_wrap_append (name text : String) (r : List Char) :
    (wrap name text).toList ++ r =
      '<' :: (name.toList ++ '>' :: (text.toList ++ '<' :: '/' :: (name.toList ++ '>' :: r))) := by
  simp [wrap]

/-- The text between tags of the same name, with what is behind them. -/
lemma inner_append_eq {name text text' : String}
    (h : (wrap name text).toList ++ r = (wrap name text').toList ++ s) :
    text.toList ++ '<' :: '/' :: (name.toList ++ '>' :: r) =
      text'.toList ++ '<' :: '/' :: (name.toList ++ '>' :: s) := by
  rw [toList_wrap_append, toList_wrap_append] at h
  exact (List.cons.inj (List.append_cancel_left (List.cons.inj h).2)).2

/-- A text ends in front of the closing tag. -/
lemma wrap_append_inj {name text text' : String} (htext : '<' ∉ text.toList)
    (htext' : '<' ∉ text'.toList)
    (h : (wrap name text).toList ++ r = (wrap name text').toList ++ s) : text = text' ∧ r = s := by
  obtain ⟨hsame, hclose⟩ := Text.append_cons_inj htext htext' (inner_append_eq h)
  have hbehind := List.append_cancel_left (List.cons.inj hclose).2
  exact ⟨String.toList_inj.1 hsame, (List.cons.inj hbehind).2⟩

/-- Items in a row end where a tag is closed and no other item is opened. -/
lemma items_append_inj {items items' : List String} (hitems : ∀ text ∈ items, '<' ∉ text.toList)
    (hitems' : ∀ text ∈ items', '<' ∉ text.toList)
    (h : (items.flatMap fun text => (wrap "li" text).toList) ++ '<' :: '/' :: r =
      (items'.flatMap fun text => (wrap "li" text).toList) ++ '<' :: '/' :: s) :
    items = items' ∧ r = s := by
  have hopens (text : String) (r s : List Char) : (wrap "li" text).toList ++ r ≠ '<' :: '/' :: s := by
    rw [toList_wrap_append]
    exact fun h => absurd (List.cons.inj (List.cons.inj h).2).1 (by decide)
  induction items generalizing items' with
  | nil =>
    cases items' with
    | nil => exact ⟨rfl, (List.cons.inj (List.cons.inj h).2).2⟩
    | cons text' items' =>
      rw [List.flatMap_cons, List.append_assoc] at h
      exact absurd h.symm (hopens _ _ _)
  | cons text items ih =>
    rw [List.flatMap_cons, List.append_assoc] at h
    cases items' with
    | nil => exact absurd h (hopens _ _ _)
    | cons text' items' =>
      rw [List.flatMap_cons, List.append_assoc] at h
      obtain ⟨htext, hothers⟩ := List.forall_mem_cons.1 hitems
      obtain ⟨htext', hothers'⟩ := List.forall_mem_cons.1 hitems'
      obtain ⟨rfl, hrest⟩ := wrap_append_inj htext htext' h
      obtain ⟨rfl, hbehind⟩ := ih hothers hothers' hrest
      exact ⟨rfl, hbehind⟩

/-- Elements that start alike have the same name. -/
lemma name_eq_of_append_eq (h : e.html.toList ++ r = f.html.toList ++ s) : e.name = f.name := by
  -- a name ends in front of the `>` of its tag
  have hclose (e : Element) : '>' ∉ e.name.toList :=
    notMem_name (by decide) (fun n => Nat.digitChar_ne '>' rfl) e
  rw [html_eq_wrap, html_eq_wrap, toList_wrap_append, toList_wrap_append] at h
  exact String.toList_inj.1 (Text.append_cons_inj (hclose e) (hclose f) (List.cons.inj h).2).1

/-- The HTML of an element determines the element and where it ends. -/
theorem html_append_inj (he : e.Untagged) (hf : f.Untagged)
    (h : e.html.toList ++ r = f.html.toList ++ s) : e = f ∧ r = s := by
  have hname := name_eq_of_append_eq h
  cases e with
  | heading level text =>
    cases f with
    | heading level' text' =>
      obtain rfl := level_eq_of_name_eq hname
      obtain ⟨rfl, hbehind⟩ := wrap_append_inj (he text List.mem_cons_self)
        (hf text' List.mem_cons_self) h
      exact ⟨rfl, hbehind⟩
    | paragraph text' => exact absurd hname (name_heading_ne (by simp [name]))
    | list items' => exact absurd hname (name_heading_ne (by simp [name]))
  | paragraph text =>
    cases f with
    | heading level' text' => exact absurd hname.symm (name_heading_ne (by simp [name]))
    | paragraph text' =>
      obtain ⟨rfl, hbehind⟩ := wrap_append_inj (he text List.mem_cons_self)
        (hf text' List.mem_cons_self) h
      exact ⟨rfl, hbehind⟩
    | list items' => exact absurd hname (by simp [name])
  | list items =>
    cases f with
    | heading level' text' => exact absurd hname.symm (name_heading_ne (by simp [name]))
    | paragraph text' => exact absurd hname (by simp [name])
    | list items' =>
      have hinner := inner_append_eq h
      simp only [Text.toList_joined_empty, List.flatMap_map] at hinner
      obtain ⟨rfl, hbehind⟩ := items_append_inj he hf hinner
      exact ⟨rfl, (List.cons.inj (List.append_cancel_left hbehind)).2⟩

/-! ### Pages -/

/-- Elements that each stand on a line of their own, below another line. -/
lemma eq_of_lines_eq {es fs : List Element} (hes : ∀ e ∈ es, e.Untagged) (hfs : ∀ f ∈ fs, f.Untagged)
    (h : (es.flatMap fun e => '\n' :: e.html.toList) = fs.flatMap fun f => '\n' :: f.html.toList) :
    es = fs := by
  induction es generalizing fs with
  | nil =>
    cases fs with
    | nil => rfl
    | cons f fs => cases h
  | cons e es ih =>
    cases fs with
    | nil => cases h
    | cons f fs =>
      rw [List.flatMap_cons, List.flatMap_cons, List.cons_append, List.cons_append] at h
      obtain ⟨he, hbelow⟩ := List.forall_mem_cons.1 hes
      obtain ⟨hf, hbelow'⟩ := List.forall_mem_cons.1 hfs
      obtain ⟨rfl, hrest⟩ := html_append_inj he hf (List.cons.inj h).2
      rw [ih hbelow hbelow' hrest]

/-- A page of at least one element, in front of which a line feed is put. -/
lemma feed_cons_page (e : Element) (es : List Element) :
    '\n' :: (Text.joined "\n" ((e :: es).map html)).toList =
      (e :: es).flatMap fun e => '\n' :: e.html.toList := by
  rw [List.map_cons, Text.toList_joined_cons, List.flatMap_map]
  rfl

lemma html_ne_empty (e : Element) : e.html ≠ "" := by
  rw [html_eq_wrap]
  simp [wrap]

/-- A page with an element on it is not empty. -/
lemma page_ne_empty (e : Element) (es : List Element) :
    Text.joined "\n" ((e :: es).map html) ≠ "" := by
  intro h
  have hchars := congrArg String.toList h
  rw [List.map_cons, Text.toList_joined_cons] at hchars
  exact html_ne_empty e (String.toList_eq_nil_iff.1 (List.append_eq_nil_iff.1 hchars).1)

/-- A page determines its elements. -/
theorem eq_of_page_eq {es fs : List Element} (hes : ∀ e ∈ es, e.Untagged) (hfs : ∀ f ∈ fs, f.Untagged)
    (h : Text.joined "\n" (es.map html) = Text.joined "\n" (fs.map html)) : es = fs := by
  cases es with
  | nil =>
    cases fs with
    | nil => rfl
    | cons f fs => exact absurd h.symm (page_ne_empty f fs)
  | cons e es =>
    cases fs with
    | nil => exact absurd h (page_ne_empty e es)
    | cons f fs =>
      refine eq_of_lines_eq hes hfs ?_
      rw [← feed_cons_page, ← feed_cons_page, h]

end Element

lemma untagged_ofBlocks {bs : List Block} (h : ∀ b ∈ bs, '<' ∉ b.text.toList) :
    ∀ e ∈ Element.ofBlocks bs, e.Untagged := by
  intro e he text htext
  obtain ⟨b, hb, rfl⟩ := Element.mem_texts_ofBlocks he htext
  exact h b hb

/-- **Decoding.**  Two rows of blocks without a `<` in their texts are equal if they are the same as
HTML. -/
theorem eq_of_html_eq {bs cs : List Block} (hbs : ∀ b ∈ bs, '<' ∉ b.text.toList)
    (hcs : ∀ b ∈ cs, '<' ∉ b.text.toList) (h : html bs = html cs) : bs = cs := by
  have helements : Element.ofBlocks bs = Element.ofBlocks cs :=
    Element.eq_of_page_eq (untagged_ofBlocks hbs) (untagged_ofBlocks hcs) h
  calc bs = (Element.ofBlocks bs).flatMap Element.blocks :=
        (Element.flatMap_blocks_ofBlocks bs).symm
    _ = (Element.ofBlocks cs).flatMap Element.blocks := by rw [helements]
    _ = cs := Element.flatMap_blocks_ofBlocks cs

/-- Two lists with a paragraph of two lines between them, as they are read from a text and as blocks
written out. -/
theorem eq_of_html_eq_lists :
    let bs := Block.ofText "* one > two\n* three\n\nfour\nfive\n* six\n"
    let cs := [Block.item "one > two", .item "three", .paragraph "four five", .item "six"]
    (∀ b ∈ bs, '<' ∉ b.text.toList) ∧ (∀ b ∈ cs, '<' ∉ b.text.toList) ∧ html bs = html cs ∧
      bs = cs := by
  intro bs cs
  have hbs : ∀ b ∈ bs, '<' ∉ b.text.toList := by decide
  have hcs : ∀ b ∈ cs, '<' ∉ b.text.toList := by decide
  have hhtml : html bs = html cs := by decide
  exact ⟨hbs, hcs, hhtml, eq_of_html_eq hbs hcs hhtml⟩

/-- A text that contains tags can be mistaken for several blocks. -/
example : html [.paragraph "one</p>\n<p>two"] = html [.paragraph "one", .paragraph "two"] := by
  decide

end Markdown
end FormLetter

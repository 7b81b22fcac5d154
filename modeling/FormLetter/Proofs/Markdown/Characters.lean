/-
# The characters of a markdown text

Nothing that can be seen is lost when tokens are made into blocks.  A draft holds the letters that
were taken into it; a token adds its letter to the draft or starts the next one with it, and a line
that is added to a text loses no more than blanks.  So the letters that are no blanks are in the
texts of the blocks, in their order and each of them once (`visible_behind`).

The texts are tidy as well: they are trimmed and go on over one line only, for a draft is kept so by
each token that is not a line feed taken for a letter (`tidy_behind`).  No element is therefore
broken over several lines, and a page has as many lines as elements (`count_toHtml`).
-/
import FormLetter.Proofs.Digits
import FormLetter.Proofs.Markdown.Documents
import FormLetter.Proofs.Trim

namespace FormLetter

namespace Text

/-! ### Visible characters -/

/-- The characters of a text that are no blanks. -/
def visible (cs : List Char) : List Char := cs.filter (!isBlank ·)

@[simp] lemma visible_nil : visible [] = [] := rfl

@[simp] lemma visible_append (cs ds : List Char) : visible (cs ++ ds) = visible cs ++ visible ds :=
  List.filter_append _ _

lemma visible_of_blanks {w : List Char} (h : Blanks w) : visible w = [] :=
  List.filter_eq_nil_iff.2 fun c hc => by simp [h c hc]

lemma visible_trim (cs : List Char) : visible (trim cs) = visible cs := by
  obtain ⟨v, w, hv, hw, hcs⟩ := exists_trim cs
  have h := congrArg visible hcs
  rw [visible_append, visible_append, visible_of_blanks hv, visible_of_blanks hw, List.nil_append,
    List.append_nil] at h
  exact h.symm

lemma feed_notMem_trim {cs : List Char} (h : '\n' ∉ cs) : '\n' ∉ trim cs :=
  fun hmem => h ((infix_trim cs).subset hmem)

/-- A row of texts without line feeds, one to a line. -/
lemma count_joined {texts : List String} (h : ∀ text ∈ texts, '\n' ∉ text.toList) :
    (joined "\n" texts).toList.count '\n' = texts.length - 1 := by
  induction texts with
  | nil => rfl
  | cons text texts ih =>
    obtain ⟨htext, htexts⟩ := List.forall_mem_cons.1 h
    by_cases hnil : texts = []
    · subst hnil
      exact List.count_eq_zero.2 htext
    · have hlength : 1 ≤ texts.length := List.length_pos_iff.2 hnil
      have hfeed : "\n".toList.count '\n' = 1 := by decide
      rw [joined_cons_of_ne_nil _ _ hnil, String.toList_append, String.toList_append,
        List.count_append, List.count_append, List.count_eq_zero.2 htext, hfeed, ih htexts,
        List.length_cons]
      omega

end Text

namespace Markdown

/-! ### Letters -/

/-- The letter that a token is. -/
def Token.letter? : Token → Option Char
  | letter c => some c
  | heading => none
  | item => none
  | lineBreak => none

/-- The letters in a row of tokens. -/
def Token.letters (ts : List Token) : List Char := ts.filterMap letter?

/-- The text of a block. -/
def Block.text : Block → String
  | heading _ text => text
  | paragraph text => text
  | item text => text

/-- The letters that were taken into a draft. -/
def Draft.letters : Draft → List Char
  | none => []
  | heading _ line => line.reverse
  | flow _ text line => text ++ line.reverse
  | pause _ text => text

lemma Token.letters_cons (t : Token) (ts : List Token) :
    letters (t :: ts) = t.letter?.toList ++ letters ts := by
  cases t <;> rfl

lemma toList_text_block (kind : Flow) (cs : List Char) : (kind.block cs).text.toList = cs := by
  cases kind <;> exact String.toList_ofList

/-- Only blanks are lost of a line that is added to a text, and only a space is added. -/
lemma visible_addLine (text line : List Char) :
    Text.visible (addLine text line) = Text.visible text ++ Text.visible line := by
  have hspace : Text.visible [' '] = [] := by decide
  rw [← Text.visible_trim line]
  unfold addLine
  split
  · next h => rw [h, Text.visible_nil, List.append_nil]
  · rfl
  · rw [Text.visible_append, ← List.singleton_append, Text.visible_append, hspace, List.nil_append]

namespace Draft

variable {d next : Draft} {t : Token}

lemma letters_start (t : Token) : (start t).letters = t.letter?.toList := by
  cases t <;> rfl

/-- A token that is taken into a draft adds its letter. -/
lemma visible_extend (h : d.extend t = some next) :
    Text.visible next.letters = Text.visible d.letters ++ Text.visible t.letter?.toList := by
  unfold extend at h
  split at h
  · obtain rfl := Option.some.inj h
    rfl
  · obtain rfl := Option.some.inj h
    simp [letters, Token.letter?]
  · obtain rfl := Option.some.inj h
    simp [letters, Token.letter?]
  · obtain rfl := Option.some.inj h
    simp [letters, Token.letter?, visible_addLine]
  · obtain rfl := Option.some.inj h
    simp [letters, Token.letter?]
  · simp at h

lemma visible_finish (d : Draft) :
    Text.visible (d.finish.flatMap (·.text.toList)) = Text.visible d.letters := by
  cases d with
  | none => rfl
  | heading level line => simp [finish, letters, Block.text, Text.visible_trim]
  | flow kind text line => simp [finish, letters, toList_text_block, visible_addLine]
  | pause kind text => simp [finish, letters, toList_text_block]

end Draft

/-- The letters that can be seen, of a draft and the tokens behind it, are those of the blocks. -/
theorem Block.visible_behind (d : Draft) (ts : List Token) :
    Text.visible ((behind d ts).flatMap (·.text.toList)) =
      Text.visible d.letters ++ Text.visible (Token.letters ts) := by
  induction ts generalizing d with
  | nil =>
    rw [behind, Draft.visible_finish]
    simp [Token.letters]
  | cons t ts ih =>
    rw [behind, Token.letters_cons, Text.visible_append, ← List.append_assoc]
    cases h : d.extend t with
    | none =>
      simp only [List.flatMap_append, Text.visible_append, Draft.visible_finish, ih,
        Draft.letters_start, List.append_assoc]
    | some next =>
      simp only [ih]
      rw [Draft.visible_extend h]

/-! ### Tidy texts -/

/-- The text of the block is trimmed and has no line end, and a heading has a level. -/
structure Block.Tidy (b : Block) : Prop where
  trim_eq : Text.trim b.text.toList = b.text.toList
  feed_notMem : '\n' ∉ b.text.toList
  one_le_level : ∀ level text, b = .heading level text → 1 ≤ level

/-- The draft can only become a tidy block. -/
def Draft.Tidy : Draft → Prop
  | none => True
  | heading level line => 1 ≤ level ∧ '\n' ∉ line
  | flow _ text line => Text.Trimmed text ∧ '\n' ∉ text ∧ '\n' ∉ line
  | pause _ text => Text.Trimmed text ∧ '\n' ∉ text

lemma trimmed_addLine {text : List Char} (htext : Text.Trimmed text) (line : List Char) :
    Text.Trimmed (addLine text line) := by
  have hline : Text.Trimmed (Text.trim line) := Text.trimmed_trim line
  unfold addLine
  split
  · exact htext
  · exact hline
  · next hne htrim =>
    constructor
    · intro c hc
      rw [List.head?_append_of_ne_nil _ hne] at hc
      exact htext.1 c hc
    · intro c hc
      rw [List.getLast?_append_of_ne_nil _ (List.cons_ne_nil _ _), ← List.singleton_append,
        List.getLast?_append_of_ne_nil _ htrim] at hc
      exact hline.2 c hc

lemma feed_notMem_addLine {text line : List Char} (htext : '\n' ∉ text) (hline : '\n' ∉ line) :
    '\n' ∉ addLine text line := by
  have htrim : '\n' ∉ Text.trim line := Text.feed_notMem_trim hline
  unfold addLine
  split
  · exact htext
  · exact htrim
  · simpa [htext] using htrim

/-- A line feed is never a letter. -/
lemma Token.feed_notMem_read (place : Place) (cs : List Char) : letter '\n' ∉ read place cs := by
  fun_induction read place cs with
  | case8 place c cs hfeed _ _ _ _ ih => simpa [ih] using Ne.symm hfeed
  | _ => simp_all

namespace Draft

variable {d next : Draft} {t : Token}

lemma tidy_start (ht : t ≠ .letter '\n') : (start t).Tidy := by
  cases t with
  | heading => exact ⟨le_refl 1, List.not_mem_nil⟩
  | item => exact ⟨Text.trimmed_of_ink (by simp [Text.Ink]), List.not_mem_nil, List.not_mem_nil⟩
  | lineBreak => trivial
  | letter c =>
    refine ⟨Text.trimmed_of_ink (by simp [Text.Ink]), List.not_mem_nil, ?_⟩
    simpa [eq_comm] using ht

lemma tidy_extend (hd : d.Tidy) (ht : t ≠ .letter '\n') (h : d.extend t = some next) :
    next.Tidy := by
  have hletter : ∀ c line, t = .letter c → '\n' ∉ line → '\n' ∉ c :: line := by
    rintro c line rfl hline
    simpa [hline, eq_comm] using ht
  unfold extend at h
  split at h
  · obtain rfl := Option.some.inj h
    exact ⟨Nat.le_succ_of_le hd.1, hd.2⟩
  · obtain rfl := Option.some.inj h
    exact ⟨hd.1, hletter _ _ rfl hd.2⟩
  · obtain rfl := Option.some.inj h
    exact ⟨hd.1, hd.2.1, hletter _ _ rfl hd.2.2⟩
  · obtain rfl := Option.some.inj h
    exact ⟨trimmed_addLine hd.1 _, feed_notMem_addLine hd.2.1 (by simpa using hd.2.2)⟩
  · obtain rfl := Option.some.inj h
    exact ⟨hd.1, hd.2, hletter _ _ rfl List.not_mem_nil⟩
  · simp at h

lemma tidy_flow {kind : Flow} {cs : List Char} (htrim : Text.Trimmed cs) (hfeed : '\n' ∉ cs) :
    (kind.block cs).Tidy where
  trim_eq := by rw [toList_text_block, Text.trim_of_trimmed htrim]
  feed_notMem := by rwa [toList_text_block]
  one_le_level := by cases kind <;> simp [Flow.block]

lemma tidy_finish (hd : d.Tidy) : ∀ b ∈ d.finish, b.Tidy := by
  intro b hb
  cases d with
  | none => simp [finish] at hb
  | heading level line =>
    obtain rfl := List.mem_singleton.1 hb
    have htext : (Block.heading level (String.ofList (Text.trim line.reverse))).text.toList =
        Text.trim line.reverse := String.toList_ofList
    refine ⟨?_, ?_, ?_⟩
    · rw [htext, Text.trim_of_trimmed (Text.trimmed_trim _)]
    · rw [htext]
      exact Text.feed_notMem_trim (by simpa using hd.2)
    · rintro level' text' heq
      obtain ⟨rfl, -⟩ := Block.heading.inj heq
      exact hd.1
  | flow kind text line =>
    obtain rfl := List.mem_singleton.1 hb
    exact tidy_flow (trimmed_addLine hd.1 _) (feed_notMem_addLine hd.2.1 (by simpa using hd.2.2))
  | pause kind text =>
    obtain rfl := List.mem_singleton.1 hb
    exact tidy_flow hd.1 hd.2

end Draft

/-- All blocks are tidy that are read behind a tidy draft. -/
theorem Block.tidy_behind {d : Draft} (hd : d.Tidy) {ts : List Token}
    (hts : Token.letter '\n' ∉ ts) : ∀ b ∈ behind d ts, b.Tidy := by
  induction ts generalizing d with
  | nil => exact Draft.tidy_finish hd
  | cons t ts ih =>
    obtain ⟨ht, hts⟩ := not_or.1 (List.mem_cons.not.1 hts)
    rw [behind]
    cases h : d.extend t with
    | none =>
      exact List.forall_mem_append.2 ⟨Draft.tidy_finish hd, ih (Draft.tidy_start (Ne.symm ht)) hts⟩
    | some next => exact ih (Draft.tidy_extend hd (Ne.symm ht) h) hts

lemma Block.tidy_ofText (text : String) : ∀ b ∈ ofText text, b.Tidy :=
  tidy_behind (d := .none) trivial (Token.feed_notMem_read _ _)

/-! ### Lines of a page -/

namespace Element

/-- The texts of an element. -/
def texts : Element → List String
  | heading _ text => [text]
  | paragraph text => [text]
  | list items => items

/-- The texts of the elements are those of the blocks. -/
lemma mem_texts_ofBlocks {bs : List Block} {e : Element} {text : String} (he : e ∈ ofBlocks bs)
    (htext : text ∈ e.texts) : ∃ b ∈ bs, b.text = text := by
  have htexts : e.texts = e.blocks.map Block.text := by
    cases e <;> simp [texts, blocks, Block.text, Function.comp_def]
  rw [htexts] at htext
  obtain ⟨b, hb, rfl⟩ := List.mem_map.1 htext
  have hmem : b ∈ (ofBlocks bs).flatMap blocks := List.mem_flatMap.2 ⟨e, he, hb⟩
  rw [flatMap_blocks_ofBlocks] at hmem
  exact ⟨b, hmem, rfl⟩

/-- The names of elements are made of a few letters and of digits. -/
lemma notMem_name {c : Char} (hletter : c ∉ ['h', 'p', 'u', 'l'])
    (hdigit : ∀ n, Nat.digitChar n ≠ c) (e : Element) : c ∉ e.name.toList := by
  simp only [List.mem_cons, List.not_mem_nil, or_false, not_or] at hletter
  cases e with
  | heading level text =>
    have hdigits : c ∉ Nat.toDigits 10 level := Text.notMem_toDigits (by decide) hdigit level
    simp [name, hletter, hdigits]
  | paragraph text => simp [name, hletter]
  | list items => simp [name, hletter]

lemma feed_notMem_wrap {name text : String} (hname : '\n' ∉ name.toList)
    (htext : '\n' ∉ text.toList) : '\n' ∉ (wrap name text).toList := by
  simp [wrap, hname, htext]

lemma feed_notMem_joined {texts : List String} (h : ∀ text ∈ texts, '\n' ∉ text.toList) :
    '\n' ∉ (Text.joined "" texts).toList := by
  rw [Text.toList_joined_empty, List.mem_flatMap]
  rintro ⟨text, htext, hfeed⟩
  exact h text htext hfeed

/-- An element takes up a single line if none of its texts has a line end. -/
lemma feed_notMem_html {e : Element} (h : ∀ text ∈ e.texts, '\n' ∉ text.toList) :
    '\n' ∉ e.html.toList := by
  rw [html_eq_wrap]
  refine feed_notMem_wrap (notMem_name (by decide) (fun n => Nat.digitChar_ne '\n' rfl) e) ?_
  cases e with
  | heading level text => exact h text List.mem_cons_self
  | paragraph text => exact h text List.mem_cons_self
  | list items =>
    refine feed_notMem_joined fun text htext => ?_
    obtain ⟨item, hitem, rfl⟩ := List.mem_map.1 htext
    exact feed_notMem_wrap (by decide) (h item hitem)

end Element

/-- A page has one line for each element. -/
lemma count_toHtml (text : String) :
    (toHtml text).toList.count '\n' = (Element.ofBlocks (Block.ofText text)).length - 1 := by
  have hfeed : ∀ html ∈ (Element.ofBlocks (Block.ofText text)).map Element.html,
      '\n' ∉ html.toList := by
    intro html hhtml
    obtain ⟨e, he, rfl⟩ := List.mem_map.1 hhtml
    refine Element.feed_notMem_html fun t ht => ?_
    obtain ⟨b, hb, rfl⟩ := Element.mem_texts_ofBlocks he ht
    exact (Block.tidy_ofText text b hb).feed_notMem
  have hcount := Text.count_joined hfeed
  rwa [List.length_map] at hcount

/-- The markdown text is shown as it is written. -/
structure Preserved (text : String) : Prop where
  /-- What can be seen of the letters is in the blocks, once and in order. -/
  visible_eq : Text.visible ((Block.ofText text).flatMap (·.text.toList)) =
    Text.visible (Token.letters (Token.ofText text))
  tidy : ∀ b ∈ Block.ofText text, b.Tidy
  /-- A line end stands between any two elements of the page, and nowhere else. -/
  count_eq : (toHtml text).toList.count '\n' =
    (Element.ofBlocks (Block.ofText text)).length - 1

/-- **Characters.**  Markdown loses, doubles and moves no visible character of the text, and breaks
lines only between elements. -/
theorem preserved (text : String) : Preserved text where
  visible_eq := Block.visible_behind .none (Token.ofText text)
  tidy := Block.tidy_ofText text
  count_eq := count_toHtml text

end Markdown
end FormLetter

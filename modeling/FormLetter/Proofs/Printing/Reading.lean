/-
# Reading what was written out

A legible tree that is written out is read again, whatever blanks were put around the words of its
tags and whichever spelling was chosen for its alternatives (`Written.exists_derivation`).  The
trees that are read from templates are legible, so reading undoes writing (`parse_written`).
-/
import FormLetter.Proofs.Grammar.Parsing
import FormLetter.Proofs.Printing.Legible
import FormLetter.Proofs.Printing.Written
import FormLetter.Proofs.Render.Writing

namespace FormLetter
namespace Template

open Text

/-! ### The tokens of a written tag -/

/-- The text has no braces. -/
def Inert (cs : List Char) : Prop := ∀ c ∈ cs, (Token.character c).extension? = none

instance (cs : List Char) : Decidable (Inert cs) :=
  decidable_of_iff (cs.all fun c => (Token.character c).extension?.isNone) (by simp [Inert])

lemma inert_of_gap {w : List Char} (h : Gap w) : Inert w := by
  have hbraces : isBlank '{' = false ∧ isBlank '}' = false := by decide
  intro c hc
  have hblank := h.blanks c hc
  have hne : c ≠ '{' ∧ c ≠ '}' := by
    constructor <;> rintro rfl <;> simp [hbraces] at hblank
  simp [Token.extension?, hne]

lemma apart_character {c : Char} (h : (Token.character c).extension? = none) (t : Token) :
    t.Apart (.character c) := by
  intro d hd hc
  obtain rfl : c = d := by simpa [Token.text] using hc
  obtain ⟨-, hbrace⟩ := Token.joins_of_extension hd
  simp [Token.extension?, hbrace] at h

lemma isChain_inert_append {cs ds : List Char} (hcs : Inert cs)
    (hds : (ds.map Token.character).IsChain Token.Apart) :
    ((cs ++ ds).map Token.character).IsChain Token.Apart := by
  induction cs with
  | nil => exact hds
  | cons c cs ih =>
    refine List.isChain_cons.2 ⟨fun t _ d hd => ?_, ih fun c hc => hcs c (by simp [hc])⟩
    simp [hcs c (by simp)] at hd

lemma isChain_word {word : List Char} (hword : Inert word) :
    (word.map Token.character).IsChain Token.Apart := by
  have hnil : (([] : List Char).map Token.character).IsChain Token.Apart := List.isChain_nil
  simpa using isChain_inert_append hword hnil

lemma isChain_append_inert {cs ds : List Char} (hds : Inert ds)
    (hcs : (cs.map Token.character).IsChain Token.Apart) :
    ((cs ++ ds).map Token.character).IsChain Token.Apart := by
  rw [List.map_append]
  refine hcs.append (isChain_word hds) fun t _ u hu => ?_
  rw [List.head?_map, Option.mem_def, Option.map_eq_some_iff] at hu
  obtain ⟨c, hc, rfl⟩ := hu
  exact apart_character (hds c (List.mem_of_mem_head? hc)) t

/-- In a tag a text keeps apart from the delimiters if it has no braces at its ends. -/
lemma isChain_tag_of_ends (fence : Fence) {cs : List Char}
    (hcs : (cs.map Token.character).IsChain Token.Apart)
    (hhead : ∀ c ∈ cs.head?, (Token.character c).extension? = none)
    (hlast : ∀ c ∈ cs.getLast?, (Token.character c).extension? = none) :
    (fence.tag cs).IsChain Token.Apart := by
  have hclosing : (cs.map Token.character ++ [Token.closing fence]).IsChain Token.Apart := by
    refine hcs.append (List.isChain_singleton _) fun t ht u _ d hd => ?_
    rw [List.getLast?_map, Option.mem_def, Option.map_eq_some_iff] at ht
    obtain ⟨c, hc, rfl⟩ := ht
    simp [hlast c hc] at hd
  refine List.isChain_cons.2 ⟨fun t ht => ?_, hclosing⟩
  cases cs with
  | nil =>
    obtain ⟨hnil, -⟩ := List.isChain_cons.1 (isChain_tag_nil fence)
    exact hnil t ht
  | cons c cs =>
    obtain rfl : Token.character c = t := by simpa using ht
    exact apart_character (hhead c rfl) _

/-- Between blanks a text meets neither delimiter of the tag. -/
lemma isChain_tag (fence : Fence) {v w cs : List Char} (hv : Gap v) (hw : Gap w)
    (hcs : (cs.map Token.character).IsChain Token.Apart) :
    (fence.tag (v ++ cs ++ w)).IsChain Token.Apart := by
  have hcontents : ((v ++ cs ++ w).map Token.character).IsChain Token.Apart :=
    isChain_append_inert (inert_of_gap hw) (isChain_inert_append (inert_of_gap hv) hcs)
  refine isChain_tag_of_ends fence hcontents (fun c hc => ?_) fun c hc => ?_
  · rw [List.append_assoc, List.head?_append_of_ne_nil _ hv.ne_nil] at hc
    exact inert_of_gap hv c (List.mem_of_mem_head? hc)
  · rw [List.getLast?_append_of_ne_nil _ hw.ne_nil] at hc
    exact inert_of_gap hw c (List.mem_of_getLast? hc)

lemma Sayable.isChain_words {s : String} (hs : Sayable s) {word w : List Char} (hword : Inert word)
    (hw : Gap w) : ((word ++ w ++ s.toList).map Token.character).IsChain Token.Apart := by
  rw [List.append_assoc]
  exact isChain_inert_append hword (isChain_inert_append (inert_of_gap hw) hs.apart)

/-! ### How deep a tree is -/

namespace Block

mutual

/-- How many blocks are nested in each other, this one included if it has a body. -/
def depth : Block → Nat
  | text _ _ => 0
  | field _ _ => 0
  | markdown _ _ => 0
  | conditional _ consequence alternative _ => max (depths consequence) (depths alternative) + 1
  | loop _ body _ => depths body + 1

/-- How many blocks are nested in each other. -/
def depths : List Block → Nat
  | [] => 0
  | b :: bs => max (depth b) (depths bs)

end

mutual

lemma depth_relocate (f : Position → Position) (b : Block) : (b.relocate f).depth = b.depth := by
  cases b with
  | text content span => rfl
  | field path span => rfl
  | markdown path span => rfl
  | conditional condition consequence alternative span =>
    simp only [relocate, depth, depths_relocateAll f consequence, depths_relocateAll f alternative]
  | loop source body span => simp only [relocate, depth, depths_relocateAll f body]

lemma depths_relocateAll (f : Position → Position) (bs : List Block) :
    depths (relocateAll f bs) = depths bs := by
  cases bs with
  | nil => rfl
  | cons b bs =>
    simp only [relocateAll, depths, depth_relocate f b, depths_relocateAll f bs]

end

lemma depths_eq_of_shapes {as bs : List Block} (h : shapes as = shapes bs) :
    depths as = depths bs := by
  rw [← depths_relocateAll (fun _ => .start) as, ← depths_relocateAll (fun _ => .start) bs]
  exact congrArg depths h

end Block

lemma Derivation.depths_blocks {n : Part} (d : Derivation n) (p : Position) :
    Block.depths (d.blocks p) = d.depth := by
  induction d generalizing p <;> simp_all [blocks, Block.depths, Block.depth, depth]

/-! ### The derivation of what was written -/

/-- The derivation is one of the given text, and its blocks are the given ones. -/
structure Derivation.Reads {n : Part} (d : Derivation n) (bs : List Block) (cs : List Char) :
    Prop where
  source_eq : d.source = cs
  maximal : d.Maximal
  isChain : d.tokens.IsChain Token.Apart
  ends : Ends d.tokens (outline n bs)
  shapes_eq : ∀ p, Block.shapes (d.blocks p) = Block.shapes bs

lemma Derivation.Reads.endsText {d : Derivation .body} {bs : List Block} {cs : List Char}
    (h : d.Reads bs cs) (hnext : ∀ b ∈ bs.head?, b.isText = false) : EndsText d.tokens := by
  rw [EndsText, h.ends.head]
  cases bs with
  | nil => simp
  | cons b bs =>
    have hb := hnext b (by simp)
    cases b <;> simp_all [Block.isText, Block.outline, Fence.tag, Token.isText]

namespace Derivation.Reads

variable {bs body consequence alternative : List Block} {span : Span}
  {d : Derivation .body} {d₁ : Derivation .body} {d₂ : Derivation .ending}
  {v w x y z cs cs₁ cs₂ : List Char}

lemma text {content : String} (hne : content ≠ "")
    (hrun : ∀ t ∈ Token.ofText content.toList, t.isText = true)
    (hnext : ∀ b ∈ bs.head?, b.isText = false) (hfits : Fits .body (.text content span :: bs))
    (hd : d.Reads bs cs) :
    ∃ e : Derivation .body, e.Reads (.text content span :: bs) (content.toList ++ cs) := by
  have hnil : Token.ofText content.toList ≠ [] := by
    intro hnil
    have htext := Token.ofText_text content.toList
    rw [hnil] at htext
    exact hne (String.toList_eq_nil_iff.1 htext.symm)
  -- the tokens of the text are its outline
  have hends := Ends.refl (Token.ofText content.toList)
  refine ⟨.text _ hnil hrun d, ?_, ⟨hd.endsText hnext, hd.maximal⟩,
    hends.isChain_append hd.ends.symm hfits hfits.left_of_append hd.isChain,
    hends.append hd.ends, fun p => ?_⟩
  · rw [source_text, Token.ofText_text, hd.source_eq]
  · simp only [blocks, Token.ofText_text, String.ofList_toList, Block.shapes_text, hd.shapes_eq]

lemma field {path : String} (hpath : Sayable path) (hclass : Tag.classify path.toList = .path path)
    (hv : Gap v) (hw : Gap w) (hfits : Fits .body (.field path span :: bs)) (hd : d.Reads bs cs) :
    ∃ e : Derivation .body, e.Reads (.field path span :: bs)
      (Fence.plain.enclose (v ++ path.toList ++ w) ++ cs) := by
  let tag : Wording (.path path) :=
    ⟨v ++ path.toList ++ w, by rw [Tag.classify_pad hv hw hpath.trimmed, hclass]⟩
  have htag : tag.tokens.IsChain Token.Apart := isChain_tag .plain hv hw hpath.apart
  refine ⟨.field path hpath.ne_empty tag d, ?_, hd.maximal,
    tag.ends.symm.isChain_append hd.ends.symm hfits htag hd.isChain, tag.ends.append hd.ends,
    fun p => ?_⟩
  · rw [source_field, hd.source_eq]
    rfl
  · simp only [blocks, Block.shapes_field, hd.shapes_eq]

lemma markdown {path : String} (hpath : Sayable path) (hv : Gap v) (hw : Gap w)
    (hfits : Fits .body (.markdown path span :: bs)) (hd : d.Reads bs cs) :
    ∃ e : Derivation .body, e.Reads (.markdown path span :: bs)
      (Fence.markdown.enclose (v ++ path.toList ++ w) ++ cs) := by
  have htrim : trim (v ++ path.toList ++ w) = path.toList :=
    trim_pad hv.blanks hpath.trimmed hw.blanks
  have hne : trim (v ++ path.toList ++ w) ≠ [] := by
    rw [htrim]
    simpa using hpath.ne_empty
  have hends : Ends (Fence.markdown.tag (v ++ path.toList ++ w)) (Fence.markdown.tag []) :=
    .tag _ _ _
  refine ⟨.markdown _ hne d, ?_, hd.maximal, hends.symm.isChain_append hd.ends.symm hfits
    (isChain_tag .markdown hv hw hpath.apart) hd.isChain, hends.append hd.ends, fun p => ?_⟩
  · rw [source_markdown, hd.source_eq]
  · simp only [blocks, htrim, String.ofList_toList, Block.shapes_markdown, hd.shapes_eq]

lemma conditional {condition : String} (hcondition : Sayable condition) (hv : Gap v) (hw : Gap w)
    (hx : Gap x) (hfits₁ : Fits .ending consequence)
    (hfits : Fits .body (.conditional condition consequence alternative span :: bs))
    (hd₁ : d₁.Reads consequence cs₁) (hd₂ : d₂.Reads alternative cs₂) (hd : d.Reads bs cs) :
    ∃ e : Derivation .body, e.Reads (.conditional condition consequence alternative span :: bs)
      (Fence.plain.enclose (v ++ ("#if".toList ++ w ++ condition.toList) ++ x) ++ cs₁ ++ cs₂ ++
        cs) := by
  let tag : Wording (.directive "if" condition) :=
    ⟨v ++ ("#if".toList ++ w ++ condition.toList) ++ x, Tag.classify_directive "if" (by decide)
      hcondition.ne_empty hcondition.trimmed hv hw hx⟩
  have htag : tag.tokens.IsChain Token.Apart :=
    isChain_tag .plain hv hx (hcondition.isChain_words (by decide) hw)
  have hitem : (tag.tokens ++ d₁.tokens ++ d₂.tokens).IsChain Token.Apart :=
    tag.ends.symm.isChain_append₃ hd₁.ends.symm hd₂.ends.symm hfits₁ htag hd₁.isChain hd₂.isChain
  have hends : Ends (tag.tokens ++ d₁.tokens ++ d₂.tokens) (Fence.plain.tag []) :=
    tag.ends.frame hd₂.ends
  refine ⟨.conditional condition hcondition.ne_empty tag d₁ d₂ d, ?_,
    ⟨hd₁.maximal, hd₂.maximal, hd.maximal⟩,
    hends.symm.isChain_append hd.ends.symm hfits hitem hd.isChain, hends.append hd.ends,
    fun p => ?_⟩
  · rw [source_conditional, hd₁.source_eq, hd₂.source_eq, hd.source_eq]
    rfl
  · simp only [blocks, Block.shapes_conditional, hd₁.shapes_eq, hd₂.shapes_eq, hd.shapes_eq]

lemma loop {source : String} (hsource : Sayable source) (hv : Gap v) (hw : Gap w) (hx : Gap x)
    (hy : Gap y) (hz : Gap z) (hfits₁ : Fits .ending body)
    (hfits : Fits .body (.loop source body span :: bs)) (hd₁ : d₁.Reads body cs₁)
    (hd : d.Reads bs cs) :
    ∃ e : Derivation .body, e.Reads (.loop source body span :: bs)
      (Fence.plain.enclose (v ++ ("#each".toList ++ w ++ source.toList) ++ x) ++ cs₁ ++
        Fence.plain.enclose (y ++ "/each".toList ++ z) ++ cs) := by
  let tag : Wording (.directive "each" source) :=
    ⟨v ++ ("#each".toList ++ w ++ source.toList) ++ x, Tag.classify_directive "each" (by decide)
      hsource.ne_empty hsource.trimmed hv hw hx⟩
  let closing : Wording (.close "each") :=
    ⟨y ++ "/each".toList ++ z,
      Tag.classify_close "each" (by decide) (trimmed_of_ink (by decide)) hy hz⟩
  have htag : tag.tokens.IsChain Token.Apart :=
    isChain_tag .plain hv hx (hsource.isChain_words (by decide) hw)
  have hclosing : closing.tokens.IsChain Token.Apart :=
    isChain_tag .plain hy hz (isChain_word (by decide))
  have hitem : (tag.tokens ++ d₁.tokens ++ closing.tokens).IsChain Token.Apart :=
    tag.ends.symm.isChain_append₃ hd₁.ends.symm closing.ends.symm hfits₁ htag hd₁.isChain hclosing
  have hends : Ends (tag.tokens ++ d₁.tokens ++ closing.tokens) (Fence.plain.tag []) :=
    tag.ends.frame closing.ends
  refine ⟨.loop source hsource.ne_empty tag d₁ closing d, ?_, ⟨hd₁.maximal, hd.maximal⟩,
    hends.symm.isChain_append hd.ends.symm hfits hitem hd.isChain, hends.append hd.ends,
    fun p => ?_⟩
  · rw [source_loop, hd₁.source_eq, hd.source_eq]
    rfl
  · simp only [blocks, Block.shapes_loop, hd₁.shapes_eq, hd.shapes_eq]

/-- The tag that closes a condition, written out. -/
def closing (hv : Gap v) (hw : Gap w) : Wording (.close "if") :=
  ⟨v ++ "/if".toList ++ w, Tag.classify_close "if" (by decide) (trimmed_of_ink (by decide)) hv hw⟩

lemma isChain_closing (hv : Gap v) (hw : Gap w) : (closing hv hw).tokens.IsChain Token.Apart :=
  isChain_tag .plain hv hw (isChain_word (by decide))

lemma close (hv : Gap v) (hw : Gap w) :
    ∃ e : Derivation .ending, e.Reads [] (Fence.plain.enclose (v ++ "/if".toList ++ w)) :=
  ⟨.close (closing hv hw), source_close _, trivial, isChain_closing hv hw, (closing hv hw).ends,
    fun _ => rfl⟩

lemma otherwise (hv : Gap v) (hw : Gap w) (hx : Gap x) (hy : Gap y)
    (hfits : Fits .ending alternative) (hd : d.Reads alternative cs) :
    ∃ e : Derivation .ending, e.Reads alternative
      (Fence.plain.enclose (v ++ "else".toList ++ w) ++ cs ++
        Fence.plain.enclose (x ++ "/if".toList ++ y)) := by
  let tag : Wording (.otherwise "") := ⟨v ++ "else".toList ++ w, Tag.classify_otherwise hv hw⟩
  have htag : tag.tokens.IsChain Token.Apart :=
    isChain_tag .plain hv hw (isChain_word (by decide))
  refine ⟨.otherwise tag d (closing hx hy), ?_, hd.maximal,
    tag.ends.symm.isChain_append₃ hd.ends.symm (closing hx hy).ends.symm hfits htag hd.isChain
      (isChain_closing hx hy),
    tag.ends.frame (closing hx hy).ends, fun p => hd.shapes_eq _⟩
  rw [source_otherwise, hd.source_eq]
  rfl

lemma otherwiseIf {condition : String} (hcondition : Sayable condition) (hv : Gap v) (hw : Gap w)
    (hx : Gap x) (hfits₁ : Fits .ending consequence) (hd₁ : d₁.Reads consequence cs₁)
    (hd₂ : d₂.Reads alternative cs₂) :
    ∃ e : Derivation .ending, e.Reads [.conditional condition consequence alternative span]
      (Fence.plain.enclose (v ++ ("elseif".toList ++ w ++ condition.toList) ++ x) ++ cs₁ ++
        cs₂) := by
  let tag : Wording (.otherwiseIf condition) :=
    ⟨v ++ ("elseif".toList ++ w ++ condition.toList) ++ x,
      Tag.classify_otherwiseIf hcondition.ne_empty hcondition.trimmed hv hw hx⟩
  have htag : tag.tokens.IsChain Token.Apart :=
    isChain_tag .plain hv hx (hcondition.isChain_words (by decide) hw)
  refine ⟨.otherwiseIf condition hcondition.ne_empty tag d₁ d₂, ?_, ⟨hd₁.maximal, hd₂.maximal⟩,
    tag.ends.symm.isChain_append₃ hd₁.ends.symm hd₂.ends.symm hfits₁ htag hd₁.isChain hd₂.isChain,
    tag.ends.frame hd₂.ends, fun p => ?_⟩
  · rw [source_otherwiseIf, hd₁.source_eq, hd₂.source_eq]
    rfl
  · simp only [blocks, Block.shapes_conditional, hd₁.shapes_eq, hd₂.shapes_eq]

end Derivation.Reads

/-- **Reading back.**  What legible blocks can be written out as has a derivation, and its blocks
are the same but for their places. -/
theorem Written.exists_derivation {n : Part} {bs : List Block} {cs : List Char}
    (h : Written n bs cs) (hbs : Legible bs) (hfits : Fits n bs) :
    ∃ d : Derivation n, d.Reads bs cs := by
  induction h with
  | nil => exact ⟨.nil, rfl, trivial, List.isChain_nil, .refl _, fun _ => rfl⟩
  | text hwritten ih =>
    cases hbs with
    | text hne hrun hnext hbs =>
      obtain ⟨d, hd⟩ := ih hbs hfits.right_of_append
      exact hd.text hne hrun hnext hfits
  | field hv hw hwritten ih =>
    cases hbs with
    | field hpath hclass hbs =>
      obtain ⟨d, hd⟩ := ih hbs hfits.right_of_append
      exact hd.field hpath hclass hv hw hfits
  | markdown hv hw hwritten ih =>
    cases hbs with
    | markdown hpath hbs =>
      obtain ⟨d, hd⟩ := ih hbs hfits.right_of_append
      exact hd.markdown hpath hv hw hfits
  | conditional hv hw hx hwritten₁ hwritten₂ hwritten ih₁ ih₂ ih =>
    cases hbs with
    | conditional hcondition hconsequence hfits₁ halternative hfits₂ hbs =>
      obtain ⟨d₁, hd₁⟩ := ih₁ hconsequence hfits₁.body
      obtain ⟨d₂, hd₂⟩ := ih₂ halternative hfits₂
      obtain ⟨d, hd⟩ := ih hbs hfits.right_of_append
      exact hd₁.conditional hcondition hv hw hx hfits₁ hfits hd₂ hd
  | loop hv hw hx hy hz hwritten₁ hwritten ih₁ ih =>
    cases hbs with
    | loop hsource hbody hfits₁ hbs =>
      obtain ⟨d₁, hd₁⟩ := ih₁ hbody hfits₁.body
      obtain ⟨d, hd⟩ := ih hbs hfits.right_of_append
      exact hd₁.loop hsource hv hw hx hy hz hfits₁ hfits hd
  | close hv hw => exact Derivation.Reads.close hv hw
  | otherwise hv hw hx hy hwritten ih =>
    obtain ⟨d, hd⟩ := ih hbs hfits.body
    exact hd.otherwise hv hw hx hy hfits
  | otherwiseIf hv hw hx hwritten₁ hwritten₂ ih₁ ih₂ =>
    cases hbs with
    | conditional hcondition hconsequence hfits₁ halternative hfits₂ hbs =>
      obtain ⟨d₁, hd₁⟩ := ih₁ hconsequence hfits₁.body
      obtain ⟨d₂, hd₂⟩ := ih₂ halternative hfits₂
      exact hd₁.otherwiseIf hcondition hv hw hx hfits₁ hd₂

/-- **Writing and reading.**  What is read from a template can be written out, and from each text
that it can be written out as the same blocks are read, but for their places; the letter is the same
as well. -/
theorem parse_written {source name : String} {blocks : List Block}
    (h : parse source name = .ok blocks) :
    (∃ cs, Written .body blocks cs) ∧
    ∀ (cs : List Char) (name' : String), Written .body blocks cs →
      ∃ blocks', parse (String.ofList cs) name' = .ok blocks' ∧
        Block.shapes blocks' = Block.shapes blocks ∧
        ∀ (setting : Render.Setting) (letter : String),
          Render.letter setting blocks' = .ok letter ↔
            Render.letter setting blocks = .ok letter := by
  obtain ⟨d, hd, hdepth, rfl⟩ := parse_eq_ok_iff.1 h
  refine ⟨exists_written _, fun cs name' hwritten => ?_⟩
  obtain ⟨hlegible, hfits, -⟩ := d.legible_blocks hd.maximal hd.isChain .start
  obtain ⟨e, he⟩ := hwritten.exists_derivation hlegible hfits
  have hshapes := he.shapes_eq .start
  have hparse : parse (String.ofList cs) name' = .ok (e.blocks .start) := by
    refine parse_eq_ok_iff.2 ⟨e, ?_, ?_, rfl⟩
    · rw [← he.source_eq]
      exact Derivation.derives_of_isChain he.maximal he.isChain
    · -- both spellings of a further condition keep the same number of blocks open
      rwa [← e.depths_blocks .start, Block.depths_eq_of_shapes hshapes, d.depths_blocks]
  refine ⟨_, hparse, hshapes, fun setting letter => ?_⟩
  rw [← Render.letter_eq_ok_iff_shapes, hshapes, Render.letter_eq_ok_iff_shapes]

/-- From `{{ #if x }}b{{ else }}{{ #if y }}{{ /if }}{{ /if }}` the same is read as from
`{{#if x}}b{{elseif y}}{{/if}}`. -/
theorem parse_written_chain :
    ∃ blocks, parse ("\x7b\x7b #if x \x7d\x7db\x7b\x7b else \x7d\x7d" ++
        "\x7b\x7b #if y \x7d\x7d\x7b\x7b /if \x7d\x7d\x7b\x7b /if \x7d\x7d") "nested" = .ok blocks ∧
      Block.shapes blocks =
        [.conditional "x" [.text "b" ⟨.start, .start⟩]
          [.conditional "y" [] [] ⟨.start, .start⟩] ⟨.start, .start⟩] := by
  have h : parse "\x7b\x7b#if x\x7d\x7db\x7b\x7belseif y\x7d\x7d\x7b\x7b/if\x7d\x7d" "chain" =
      .ok [.conditional "x" [.text "b" ⟨⟨1, 9, 9⟩, ⟨1, 10, 10⟩⟩]
        [.conditional "y" [] [] ⟨⟨1, 10, 10⟩, ⟨1, 29, 29⟩⟩] ⟨.start, ⟨1, 29, 29⟩⟩] := rfl
  obtain ⟨blocks, hblocks, hshapes, -⟩ := (parse_written h).2 _ "nested"
    (.conditional gap_space gap_space gap_space (.text .nil)
      (.otherwise gap_space gap_space gap_space gap_space
        (.conditional gap_space gap_space gap_space .nil (.close gap_space gap_space) .nil)) .nil)
  exact ⟨blocks, hblocks, hshapes⟩

end Template
end FormLetter

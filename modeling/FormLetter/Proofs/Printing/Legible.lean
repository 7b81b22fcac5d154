/-
# Trees that can be written out

Not every tree can be written out and read again: a path must fit into a tag, and where a text meets
a delimiter no other delimiter may form.  The trees that are read from templates have what it takes
(`legible_blocks`).

What matters where the items of a body meet are only the first and the last token of each.  So the
body is looked at in outline, with all contents of its tags and blocks left out: what is between the
first token of an item and the last one does not count.
-/
import FormLetter.Proofs.Grammar.Derivation

namespace FormLetter
namespace Template

open Text

/-! ### Rows of tokens with the same ends -/

/-- The two rows start with the same token, and they end with the same token. -/
structure Ends (ts us : List Token) : Prop where
  head : ts.head? = us.head?
  last : ts.getLast? = us.getLast?

namespace Ends

variable {ts us ts' us' ts'' us'' : List Token}

lemma refl (ts : List Token) : Ends ts ts := ⟨rfl, rfl⟩

lemma symm (h : Ends ts us) : Ends us ts := ⟨h.head.symm, h.last.symm⟩

lemma append (h : Ends ts us) (h' : Ends ts' us') : Ends (ts ++ ts') (us ++ us') := by
  constructor
  · rw [List.head?_append, List.head?_append, h.head, h'.head]
  · rw [List.getLast?_append, List.getLast?_append, h.last, h'.last]

/-- Rows that keep apart inside keep apart from each other if rows with the same ends do. -/
lemma isChain_append (h : Ends ts us) (h' : Ends ts' us') (hchain : (ts ++ ts').IsChain Token.Apart)
    (hus : us.IsChain Token.Apart) (hus' : us'.IsChain Token.Apart) :
    (us ++ us').IsChain Token.Apart := by
  rw [List.isChain_append] at hchain ⊢
  rw [← h.last, ← h'.head]
  exact ⟨hus, hus', hchain.2.2⟩

lemma isChain_append₃ (h : Ends ts us) (h' : Ends ts' us') (h'' : Ends ts'' us'')
    (hchain : (ts ++ ts' ++ ts'').IsChain Token.Apart) (hus : us.IsChain Token.Apart)
    (hus' : us'.IsChain Token.Apart) (hus'' : us''.IsChain Token.Apart) :
    (us ++ us' ++ us'').IsChain Token.Apart :=
  (h.append h').isChain_append h'' hchain
    (h.isChain_append h' hchain.left_of_append hus hus') hus''

/-- A tag has the ends of any other one of its fence. -/
lemma tag (fence : Fence) (contents contents' : List Char) :
    Ends (fence.tag contents) (fence.tag contents') :=
  ⟨rfl, by simp [Fence.tag, List.getLast?_cons, List.getLast?_append]⟩

/-- What starts and ends with a tag has the ends of a tag. -/
lemma frame (h : Ends ts (Fence.plain.tag [])) (h' : Ends ts'' (Fence.plain.tag [])) :
    Ends (ts ++ ts' ++ ts'') (Fence.plain.tag []) := by
  have hne : ∀ {ts}, Ends ts (Fence.plain.tag []) → ts ≠ [] := by
    rintro _ h rfl
    simp [Fence.tag] at h
    exact absurd h.head (by simp)
  constructor
  · rw [List.append_assoc, List.head?_append_of_ne_nil _ (hne h), h.head]
  · rw [List.getLast?_append_of_ne_nil _ (hne h'), h'.last]

end Ends

/-! ### Outlines -/

/-- The block without what is inside its tags and between them. -/
def Block.outline : Block → List Token
  | .text content _ => Token.ofText content.toList
  | .markdown _ _ => Fence.markdown.tag []
  | .field _ _ => Fence.plain.tag []
  | .conditional _ _ _ _ => Fence.plain.tag []
  | .loop _ _ _ => Fence.plain.tag []

/-- The outline of a body, or of an ending with the given alternative. -/
def outline : Part → List Block → List Token
  | .body, bs => bs.flatMap Block.outline
  | .ending, _ => Fence.plain.tag []

@[simp] lemma outline_nil : outline .body [] = [] := rfl

@[simp] lemma outline_cons (b : Block) (bs : List Block) :
    outline .body (b :: bs) = b.outline ++ outline .body bs := rfl

/-- No delimiters form in a body, or in an alternative between the tags around it. -/
def Fits : Part → List Block → Prop
  | .body, bs => (outline .body bs).IsChain Token.Apart
  | .ending, bs =>
    (Fence.plain.tag [] ++ outline .body bs ++ Fence.plain.tag []).IsChain Token.Apart

lemma Fits.body {bs : List Block} (h : Fits .ending bs) : Fits .body bs :=
  h.left_of_append.right_of_append

lemma isChain_tag_nil (fence : Fence) : (fence.tag []).IsChain Token.Apart := by
  cases fence <;> simp [Fence.tag, Token.Apart, Token.extension?, Token.text, Fence.closing]

/-- Between the tags around it, a body of no blocks or of one in tags fits. -/
lemma fits_ending {bs : List Block} (h : ∀ b ∈ bs, b.outline = Fence.plain.tag [])
    (hlength : bs.length ≤ 1) : Fits .ending bs := by
  match bs, hlength with
  | [], _ =>
    simp [Fits, Fence.tag, Token.Apart, Token.extension?, Token.text, Fence.opening, Fence.closing]
  | [b], _ =>
    simp [Fits, h b (by simp), Fence.tag, Token.Apart, Token.extension?, Token.text, Fence.opening,
      Fence.closing]

/-! ### Legible blocks -/

/-- A path, a condition or a source that can stand between the blanks of a tag. -/
structure Sayable (s : String) : Prop where
  ne_empty : s ≠ ""
  trimmed : Trimmed s.toList
  apart : (s.toList.map Token.character).IsChain Token.Apart

/-- The blocks can be written out in a row. -/
inductive Legible : List Block → Prop
  | nil : Legible []
  | text {content : String} {span : Span} {bs : List Block} (hne : content ≠ "")
      (hrun : ∀ t ∈ Token.ofText content.toList, t.isText = true)
      (hnext : ∀ b ∈ bs.head?, b.isText = false) (hbs : Legible bs) :
      Legible (.text content span :: bs)
  | field {path : String} {span : Span} {bs : List Block} (hpath : Sayable path)
      (hclass : Tag.classify path.toList = .path path) (hbs : Legible bs) :
      Legible (.field path span :: bs)
  | markdown {path : String} {span : Span} {bs : List Block} (hpath : Sayable path)
      (hbs : Legible bs) : Legible (.markdown path span :: bs)
  | conditional {condition : String} {span : Span} {consequence alternative bs : List Block}
      (hcondition : Sayable condition) (hconsequence : Legible consequence)
      (hfits : Fits .ending consequence) (halternative : Legible alternative)
      (hfits' : Fits .ending alternative) (hbs : Legible bs) :
      Legible (.conditional condition consequence alternative span :: bs)
  | loop {source : String} {span : Span} {body bs : List Block} (hsource : Sayable source)
      (hbody : Legible body) (hfits : Fits .ending body) (hbs : Legible bs) :
      Legible (.loop source body span :: bs)

/-! ### What is read is legible -/

lemma isChain_contents {fence : Fence} {contents : List Char}
    (h : (fence.tag contents).IsChain Token.Apart) :
    (contents.map Token.character).IsChain Token.Apart := by
  rw [Fence.tag, ← List.singleton_append] at h
  exact h.right_of_append.left_of_append

lemma Sayable.of_contents {s : String} {contents : List Char} (hne : s ≠ "")
    (htrim : Trimmed s.toList) (hpart : s.toList <:+: trim contents)
    (h : (contents.map Token.character).IsChain Token.Apart) : Sayable s := by
  obtain ⟨before, after, hcontents⟩ := hpart.trans (infix_trim contents)
  rw [← hcontents, List.map_append, List.map_append] at h
  exact ⟨hne, htrim, h.left_of_append.right_of_append⟩

lemma Wording.sayable {tag : Tag} (w : Wording tag) {s : String} (hs : s ∈ tag.argument?)
    (hne : s ≠ "") (h : w.tokens.IsChain Token.Apart) : Sayable s := by
  rw [← w.classified] at hs
  obtain ⟨htrim, hpart⟩ := Tag.argument_classify hs
  exact .of_contents hne htrim hpart (isChain_contents h)

lemma Wording.ends {tag : Tag} (w : Wording tag) : Ends w.tokens (Fence.plain.tag []) := .tag _ _ _

namespace Derivation

variable {n : Part}

/-- The blocks of a derivation can be written out, as the part of speech that they come from. -/
theorem legible_blocks (d : Derivation n) (hmax : d.Maximal)
    (hchain : d.tokens.IsChain Token.Apart) (p : Position) :
    Legible (d.blocks p) ∧ Fits n (d.blocks p) ∧ Ends d.tokens (outline n (d.blocks p)) := by
  induction d generalizing p with
  | nil => exact ⟨.nil, List.isChain_nil, .refl _⟩
  | text run hne hrun rest ih =>
    obtain ⟨hbs, hfits, hends⟩ :=
      ih hmax.2 hchain.right_of_append (p.after (run.flatMap Token.text))
    have htokens : Token.ofText (String.ofList (run.flatMap Token.text)).toList = run := by
      rw [String.toList_ofList, Token.ofText_flatMap_text hchain.left_of_append]
    have hcontent : String.ofList (run.flatMap Token.text) ≠ "" := by
      obtain ⟨t, run, rfl⟩ := List.exists_cons_of_ne_nil hne
      simp
    refine ⟨.text hcontent (htokens.symm ▸ hrun) (isText_head_blocks rest hmax.1 _) hbs, ?_, ?_⟩
    · -- the outline of the run is the run, so only what stands behind it changes
      simp only [Fits, blocks, outline_cons, Block.outline, htokens]
      exact (Ends.refl run).isChain_append hends hchain hchain.left_of_append hfits
    · simp only [tokens, blocks, outline_cons, Block.outline, htokens]
      exact (Ends.refl run).append hends
  | field path hne tag rest ih =>
    obtain ⟨hbs, hfits, hends⟩ := ih hmax hchain.right_of_append (p.after tag.source)
    have hpath : Sayable path := tag.sayable rfl hne hchain.left_of_append
    exact ⟨.field hpath (Tag.classify_path tag.classified) hbs,
      tag.ends.isChain_append hends hchain (isChain_tag_nil _) hfits, tag.ends.append hends⟩
  | markdown contents hne rest ih =>
    obtain ⟨hbs, hfits, hends⟩ :=
      ih hmax hchain.right_of_append (p.after (Fence.markdown.enclose contents))
    have htag : Ends (Fence.markdown.tag contents) (Fence.markdown.tag []) := .tag _ _ _
    have hpath : Sayable (String.ofList (trim contents)) := by
      have hlist : (String.ofList (trim contents)).toList = trim contents := String.toList_ofList
      exact .of_contents (by simpa using hne) (hlist.symm ▸ trimmed_trim contents)
        (hlist.symm ▸ List.infix_refl _) (isChain_contents hchain.left_of_append)
    exact ⟨.markdown hpath hbs, htag.isChain_append hends hchain (isChain_tag_nil _) hfits,
      htag.append hends⟩
  | conditional condition hne tag consequence ending rest ih₁ ih₂ ih₃ =>
    have hitem := hchain.left_of_append
    obtain ⟨hbs₁, hfits₁, hends₁⟩ :=
      ih₁ hmax.1 hitem.left_of_append.right_of_append (p.after tag.source)
    obtain ⟨hbs₂, hfits₂, hends₂⟩ := ih₂ hmax.2.1 hitem.right_of_append
      ((p.after tag.source).after consequence.source)
    obtain ⟨hbs, hfits, hends⟩ := ih₃ hmax.2.2 hchain.right_of_append
      (((p.after tag.source).after consequence.source).after ending.source)
    have hcondition : Sayable condition :=
      tag.sayable rfl hne hitem.left_of_append.left_of_append
    -- around the consequence the two tags count with their ends only, and so does the whole block
    -- for what stands beside it
    have hframe := tag.ends.isChain_append₃ hends₁ hends₂ hitem (isChain_tag_nil _) hfits₁
      (isChain_tag_nil _)
    have hwhole : Ends (tag.tokens ++ consequence.tokens ++ ending.tokens) (Fence.plain.tag []) :=
      tag.ends.frame hends₂
    exact ⟨.conditional hcondition hbs₁ hframe hbs₂ hfits₂ hbs,
      hwhole.isChain_append hends hchain (isChain_tag_nil _) hfits, hwhole.append hends⟩
  | loop source hne tag body closing rest ih₁ ih₂ =>
    have hitem := hchain.left_of_append
    obtain ⟨hbs₁, hfits₁, hends₁⟩ :=
      ih₁ hmax.1 hitem.left_of_append.right_of_append (p.after tag.source)
    obtain ⟨hbs, hfits, hends⟩ := ih₂ hmax.2 hchain.right_of_append
      (((p.after tag.source).after body.source).after closing.source)
    have hsource : Sayable source := tag.sayable rfl hne hitem.left_of_append.left_of_append
    have hframe := tag.ends.isChain_append₃ hends₁ closing.ends hitem (isChain_tag_nil _) hfits₁
      (isChain_tag_nil _)
    have hwhole : Ends (tag.tokens ++ body.tokens ++ closing.tokens) (Fence.plain.tag []) :=
      tag.ends.frame closing.ends
    exact ⟨.loop hsource hbs₁ hframe hbs,
      hwhole.isChain_append hends hchain (isChain_tag_nil _) hfits, hwhole.append hends⟩
  | close tag =>
    exact ⟨.nil, fits_ending (by simp [blocks]) (Nat.zero_le _), tag.ends⟩
  | otherwise tag alternative closing ih =>
    obtain ⟨hbs, hfits, hends⟩ :=
      ih hmax hchain.left_of_append.right_of_append (p.after tag.source)
    exact ⟨hbs, tag.ends.isChain_append₃ hends closing.ends hchain (isChain_tag_nil _) hfits
      (isChain_tag_nil _), tag.ends.frame closing.ends⟩
  | otherwiseIf condition hne tag consequence ending ih₁ ih₂ =>
    obtain ⟨hbs₁, hfits₁, hends₁⟩ :=
      ih₁ hmax.1 hchain.left_of_append.right_of_append (p.after tag.source)
    obtain ⟨hbs₂, hfits₂, hends₂⟩ := ih₂ hmax.2 hchain.right_of_append
      ((p.after tag.source).after consequence.source)
    have hcondition : Sayable condition :=
      tag.sayable rfl hne hchain.left_of_append.left_of_append
    have hframe := tag.ends.isChain_append₃ hends₁ hends₂ hchain (isChain_tag_nil _) hfits₁
      (isChain_tag_nil _)
    exact ⟨.conditional hcondition hbs₁ hframe hbs₂ hfits₂ .nil,
      fits_ending (by simp [blocks, Block.outline]) (le_refl _), tag.ends.frame hends₂⟩

end Derivation
end Template
end FormLetter

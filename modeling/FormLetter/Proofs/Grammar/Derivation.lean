/-
# The grammar of templates

A template is a row of items: runs of text, fields, markdown fields, conditions and loops.  The
grammar has two parts of speech.

* A body is a row of items.  A run of text in it is as long as possible; a condition is a tag, a
  body and an ending; a loop is a tag, a body and a tag that closes it.
* An ending is what stands behind the consequence of a condition: the tag that closes the condition;
  or a bare `else`, a body and that tag; or an `elseif` with a body and an ending of its own.

A derivation is a tree of this grammar.  It has the tokens that it derives, the depth to which it
nests blocks, and, once it stands at a position, the blocks that it is read as.
-/
import FormLetter.Template.Block
import FormLetter.Proofs.Segments

namespace FormLetter
namespace Template

/-- Is the block a run of text? -/
def Block.isText : Block → Bool
  | text _ _ => true
  | _ => false

/-- The contents of a tag that says the given thing. -/
structure Wording (tag : Tag) where
  contents : List Char
  classified : Tag.classify contents = tag

/-- What stands in the template for the tag. -/
def Wording.source {tag : Tag} (w : Wording tag) : List Char := Fence.plain.enclose w.contents

/-- The tokens of the tag. -/
def Wording.tokens {tag : Tag} (w : Wording tag) : List Token := Fence.plain.tag w.contents

/-- The parts of speech of the grammar. -/
inductive Part where
  /-- Items in a row. -/
  | body
  /-- What stands behind the consequence of a condition. -/
  | ending
deriving DecidableEq

/-- The trees of the grammar. -/
inductive Derivation : Part → Type where
  /-- No more items. -/
  | nil : Derivation .body
  /-- A run of text. -/
  | text (run : List Token) (hne : run ≠ []) (hrun : ∀ t ∈ run, t.isText = true)
      (rest : Derivation .body) : Derivation .body
  /-- A tag that says a path. -/
  | field (path : String) (hne : path ≠ "") (tag : Wording (.path path))
      (rest : Derivation .body) : Derivation .body
  /-- The tag of a markdown field. -/
  | markdown (contents : List Char) (hne : Text.trim contents ≠ [])
      (rest : Derivation .body) : Derivation .body
  /-- A condition, its consequence and its ending. -/
  | conditional (condition : String) (hne : condition ≠ "")
      (tag : Wording (.directive "if" condition)) (consequence : Derivation .body)
      (ending : Derivation .ending) (rest : Derivation .body) : Derivation .body
  /-- A loop over its body. -/
  | loop (source : String) (hne : source ≠ "") (tag : Wording (.directive "each" source))
      (body : Derivation .body) (closing : Wording (.close "each"))
      (rest : Derivation .body) : Derivation .body
  /-- The condition is closed. -/
  | close (tag : Wording (.close "if")) : Derivation .ending
  /-- An alternative, and the tag that closes the condition. -/
  | otherwise (tag : Wording (.otherwise "")) (alternative : Derivation .body)
      (closing : Wording (.close "if")) : Derivation .ending
  /-- An alternative under a condition of its own. -/
  | otherwiseIf (condition : String) (hne : condition ≠ "") (tag : Wording (.otherwiseIf condition))
      (consequence : Derivation .body) (ending : Derivation .ending) : Derivation .ending

namespace Derivation

variable {n : Part}

/-- The tokens that are derived. -/
def tokens : {n : Part} → Derivation n → List Token
  | _, .nil => []
  | _, .text run _ _ rest => run ++ rest.tokens
  | _, .field _ _ tag rest => tag.tokens ++ rest.tokens
  | _, .markdown contents _ rest => Fence.markdown.tag contents ++ rest.tokens
  | _, .conditional _ _ tag consequence ending rest =>
    tag.tokens ++ consequence.tokens ++ ending.tokens ++ rest.tokens
  | _, .loop _ _ tag body closing rest =>
    tag.tokens ++ body.tokens ++ closing.tokens ++ rest.tokens
  | _, .close tag => tag.tokens
  | _, .otherwise tag alternative closing =>
    tag.tokens ++ alternative.tokens ++ closing.tokens
  | _, .otherwiseIf _ _ tag consequence ending =>
    tag.tokens ++ consequence.tokens ++ ending.tokens

/-- The text that is derived. -/
def source (d : Derivation n) : List Char := d.tokens.flatMap Token.text

/-- Every run of text reaches as far as it can. -/
def Maximal : {n : Part} → Derivation n → Prop
  | _, .nil => True
  | _, .text _ _ _ rest => EndsText rest.tokens ∧ rest.Maximal
  | _, .field _ _ _ rest => rest.Maximal
  | _, .markdown _ _ rest => rest.Maximal
  | _, .conditional _ _ _ consequence ending rest =>
    consequence.Maximal ∧ ending.Maximal ∧ rest.Maximal
  | _, .loop _ _ _ body _ rest => body.Maximal ∧ rest.Maximal
  | _, .close _ => True
  | _, .otherwise _ alternative _ => alternative.Maximal
  | _, .otherwiseIf _ _ _ consequence ending => consequence.Maximal ∧ ending.Maximal

/-- How many blocks are open at once.  A condition or a loop is open up to the tag that closes it,
and so is each further condition of a chain. -/
def depth : {n : Part} → Derivation n → Nat
  | _, .nil => 0
  | _, .text _ _ _ rest => rest.depth
  | _, .field _ _ _ rest => rest.depth
  | _, .markdown _ _ rest => rest.depth
  | _, .conditional _ _ _ consequence ending rest =>
    max (max consequence.depth ending.depth + 1) rest.depth
  | _, .loop _ _ _ body _ rest => max (body.depth + 1) rest.depth
  | _, .close _ => 0
  | _, .otherwise _ alternative _ => alternative.depth
  | _, .otherwiseIf _ _ _ consequence ending => max consequence.depth ending.depth + 1

/-- The blocks that are read when the text stands at `p`: the items of a body, or the alternative
in an ending. -/
def blocks : {n : Part} → Derivation n → Position → List Block
  | _, .nil, _ => []
  | _, .text run _ _ rest, p =>
    let q := p.after (run.flatMap Token.text)
    .text (String.ofList (run.flatMap Token.text)) ⟨p, q⟩ :: rest.blocks q
  | _, .field path _ tag rest, p =>
    let q := p.after tag.source
    .field path ⟨p, q⟩ :: rest.blocks q
  | _, .markdown contents _ rest, p =>
    let q := p.after (Fence.markdown.enclose contents)
    .markdown (String.ofList (Text.trim contents)) ⟨p, q⟩ :: rest.blocks q
  | _, .conditional condition _ tag consequence ending rest, p =>
    let q₁ := p.after tag.source
    let q₂ := q₁.after consequence.source
    let q := q₂.after ending.source
    .conditional condition (consequence.blocks q₁) (ending.blocks q₂) ⟨p, q⟩ :: rest.blocks q
  | _, .loop source _ tag body closing rest, p =>
    let q₁ := p.after tag.source
    let q := (q₁.after body.source).after closing.source
    .loop source (body.blocks q₁) ⟨p, q⟩ :: rest.blocks q
  | _, .close _, _ => []
  | _, .otherwise tag alternative _, p => alternative.blocks (p.after tag.source)
  | _, .otherwiseIf condition _ tag consequence ending, p =>
    let q₁ := p.after tag.source
    let q₂ := q₁.after consequence.source
    [.conditional condition (consequence.blocks q₁) (ending.blocks q₂) ⟨p, q₂.after ending.source⟩]

/-- Induction along the items of a body, without a look inside the blocks. -/
@[elab_as_elim]
theorem body_induction {motive : Derivation .body → Prop} (nil : motive nil)
    (text : ∀ run hne hrun rest, motive rest → motive (text run hne hrun rest))
    (field : ∀ path hne tag rest, motive rest → motive (field path hne tag rest))
    (markdown : ∀ contents hne rest, motive rest → motive (markdown contents hne rest))
    (conditional : ∀ condition hne tag consequence ending rest, motive rest →
      motive (conditional condition hne tag consequence ending rest))
    (loop : ∀ source hne tag body closing rest, motive rest →
      motive (loop source hne tag body closing rest))
    (d : Derivation .body) : motive d := by
  -- the part of speech has to be open for the induction; endings are ruled out afterwards
  have hmotive : ∀ {n : Part} (d : Derivation n) (hn : n = .body), motive (hn ▸ d) := by
    intro n d hn
    induction d with
    | nil => exact nil
    | text run hne hrun rest ih => exact text run hne hrun rest (ih rfl)
    | field path hne tag rest ih => exact field path hne tag rest (ih rfl)
    | markdown contents hne rest ih => exact markdown contents hne rest (ih rfl)
    | conditional condition hne tag consequence ending rest _ _ ih =>
      exact conditional condition hne tag consequence ending rest (ih rfl)
    | loop source hne tag body closing rest _ ih =>
      exact loop source hne tag body closing rest (ih rfl)
    | close tag => cases hn
    | otherwise tag alternative closing _ => cases hn
    | otherwiseIf condition hne tag consequence ending _ _ => cases hn
  exact hmotive d rfl

/-! ### The text of a derivation, by its root -/

@[simp] lemma flatMap_text_wording {tag : Tag} (w : Wording tag) :
    w.tokens.flatMap Token.text = w.source :=
  Fence.flatMap_text_tag _ _

section

attribute [local simp] source tokens

@[simp] lemma source_nil : nil.source = [] := rfl

@[simp] lemma source_text (run : List Token) (hne hrun) (rest : Derivation .body) :
    (text run hne hrun rest).source = run.flatMap Token.text ++ rest.source := by
  simp

@[simp] lemma source_field (path : String) (hne) (tag : Wording (.path path))
    (rest : Derivation .body) : (field path hne tag rest).source = tag.source ++ rest.source := by
  simp

@[simp] lemma source_markdown (contents : List Char) (hne) (rest : Derivation .body) :
    (markdown contents hne rest).source = Fence.markdown.enclose contents ++ rest.source := by
  simp

@[simp] lemma source_conditional (condition : String) (hne)
    (tag : Wording (.directive "if" condition)) (consequence : Derivation .body)
    (ending : Derivation .ending) (rest : Derivation .body) :
    (conditional condition hne tag consequence ending rest).source =
      tag.source ++ consequence.source ++ ending.source ++ rest.source := by
  simp

@[simp] lemma source_loop (name : String) (hne) (tag : Wording (.directive "each" name))
    (body : Derivation .body) (closing : Wording (.close "each")) (rest : Derivation .body) :
    (loop name hne tag body closing rest).source =
      tag.source ++ body.source ++ closing.source ++ rest.source := by
  simp

@[simp] lemma source_close (tag : Wording (.close "if")) : (close tag).source = tag.source := by
  simp

@[simp] lemma source_otherwise (tag : Wording (.otherwise "")) (alternative : Derivation .body)
    (closing : Wording (.close "if")) :
    (otherwise tag alternative closing).source =
      tag.source ++ alternative.source ++ closing.source := by
  simp

@[simp] lemma source_otherwiseIf (condition : String) (hne)
    (tag : Wording (.otherwiseIf condition)) (consequence : Derivation .body)
    (ending : Derivation .ending) :
    (otherwiseIf condition hne tag consequence ending).source =
      tag.source ++ consequence.source ++ ending.source := by
  simp

end

/-! ### The segments of a derivation -/

/-- The segments of the derived text. -/
def segments : {n : Part} → Derivation n → List Segment
  | _, .nil => []
  | _, .text run _ _ rest => .text (run.flatMap Token.text) :: rest.segments
  | _, .field _ _ tag rest => .tag false tag.contents :: rest.segments
  | _, .markdown contents _ rest => .markdown contents :: rest.segments
  | _, .conditional _ _ tag consequence ending rest =>
    .tag false tag.contents :: (consequence.segments ++ (ending.segments ++ rest.segments))
  | _, .loop _ _ tag body closing rest =>
    .tag false tag.contents :: (body.segments ++ .tag true closing.contents :: rest.segments)
  | _, .close tag => [.tag true tag.contents]
  | _, .otherwise tag alternative closing =>
    .tag true tag.contents :: (alternative.segments ++ [.tag true closing.contents])
  | _, .otherwiseIf _ _ tag consequence ending =>
    .tag true tag.contents :: (consequence.segments ++ ending.segments)

lemma ofTokens_wording {tag : Tag} (w : Wording tag) (ts : List Token) :
    Segment.ofTokens (w.tokens ++ ts) = .tag tag.continues w.contents :: Segment.ofTokens ts := by
  rw [Wording.tokens, Segment.ofTokens_tag, w.classified]

lemma endsText_wording {tag : Tag} (w : Wording tag) (ts : List Token) :
    EndsText (w.tokens ++ ts) := endsText_tag _ _ _

/-- An ending starts with a tag. -/
lemma endsText_ending (d : Derivation .ending) (ts : List Token) : EndsText (d.tokens ++ ts) := by
  cases d <;> simp only [tokens, List.append_assoc] <;> exact endsText_wording _ _

/-- The tokens of a derivation are cut up into its segments, whatever comes behind it; only a body
must not be followed by text, which could add to a run of text at its end. -/
theorem ofTokens_tokens (d : Derivation n) (hmax : d.Maximal) {ts : List Token}
    (hts : n = .body → EndsText ts) :
    Segment.ofTokens (d.tokens ++ ts) = d.segments ++ Segment.ofTokens ts := by
  -- on the tokens behind `d`: within a block they start with the tag that ends the body
  induction d generalizing ts with
  | nil => rfl
  | text run hne hrun rest ih =>
    simp only [tokens, segments, List.append_assoc, List.cons_append]
    rw [Segment.ofTokens_run hne hrun (hmax.1.append (hts rfl)), ih hmax.2 hts]
  | field path hne tag rest ih =>
    simp only [tokens, segments, List.append_assoc, List.cons_append]
    rw [ofTokens_wording, ih hmax hts]
    rfl
  | markdown contents hne rest ih =>
    simp only [tokens, segments, List.append_assoc, List.cons_append]
    rw [Segment.ofTokens_markdown, ih hmax hts]
  | conditional condition hne tag consequence ending rest ih₁ ih₂ ih₃ =>
    simp only [tokens, segments, List.append_assoc, List.cons_append]
    rw [ofTokens_wording, ih₁ hmax.1 fun _ => endsText_ending _ _, ih₂ hmax.2.1 (by simp),
      ih₃ hmax.2.2 hts]
    rfl
  | loop source hne tag body closing rest ih₁ ih₂ =>
    simp only [tokens, segments, List.append_assoc, List.cons_append]
    rw [ofTokens_wording, ih₁ hmax.1 fun _ => endsText_wording _ _, ofTokens_wording,
      ih₂ hmax.2 hts]
    rfl
  | close tag => exact ofTokens_wording tag ts
  | otherwise tag alternative closing ih =>
    simp only [tokens, segments, List.append_assoc, List.cons_append]
    rw [ofTokens_wording, ih hmax fun _ => endsText_wording _ _, ofTokens_wording]
    rfl
  | otherwiseIf condition hne tag consequence ending ih₁ ih₂ =>
    simp only [tokens, segments, List.append_assoc, List.cons_append]
    rw [ofTokens_wording, ih₁ hmax.1 fun _ => endsText_ending _ _, ih₂ hmax.2 (by simp)]
    rfl

/-! ### Runs of text -/

/-- Behind a run of text stands no other one. -/
lemma isText_head_blocks (d : Derivation .body) (h : EndsText d.tokens) (p : Position) :
    ∀ b ∈ (d.blocks p).head?, b.isText = false := by
  cases d with
  | nil => simp [blocks]
  | text run hne hrun rest =>
    obtain ⟨t, run, rfl⟩ := List.exists_cons_of_ne_nil hne
    have htext := h t (by simp [tokens])
    rw [hrun t (by simp)] at htext
    exact absurd htext (by simp)
  | _ => simp [blocks, Block.isText]

end Derivation
end Template
end FormLetter

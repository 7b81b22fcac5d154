/-
# What the spans of a tree cover

The blocks of a template cover it without gap or overlap, and so do the bodies of a block, within
the span of that block.  The text at the span of a block is the template of this block alone: read
on its own it gives the block again, moved to the start (`coverage_of_parse`).  The one exception is
a further condition of a chain, whose span starts at an `elseif`.
-/
import FormLetter.Proofs.Coverage.Within
import FormLetter.Proofs.Grammar.Parsing
import FormLetter.Proofs.Placement

namespace FormLetter
namespace Template

/-- The first place is not behind the second one, neither by bytes nor by lines and columns. -/
def Position.Precedes (p q : Position) : Prop :=
  p.offset ≤ q.offset ∧ (p.line < q.line ∨ p.line = q.line ∧ p.column ≤ q.column)

namespace Span

/-- The second span lies within the first one. -/
def Encloses (outer inner : Span) : Prop :=
  outer.start.Precedes inner.start ∧ inner.start.Precedes inner.finish ∧
    inner.finish.Precedes outer.finish

/-- The given characters of the template are those at the span. -/
def Covers (span : Span) (source : String) (slice : List Char) : Prop :=
  ∃ before after, source.toList = before ++ slice ++ after ∧
    span.start = Position.start.after before ∧ span.finish = span.start.after slice

end Span

namespace Block

/-- Each block starts where the one before it ends; the first one starts at `p`, and the last one
ends at `q`. -/
def Tiles (p : Position) : List Block → Position → Prop
  | [], q => p = q
  | b :: blocks, q => b.span.start = p ∧ Tiles b.span.finish blocks q

/-- The block is a condition of which the text, given as `slice`, starts with an `elseif`. -/
def ContinuesChain (b : Block) (slice : List Char) : Prop :=
  (∃ condition consequence alternative span,
    b = .conditional condition consequence alternative span) ∧
  ∃ condition, ∃ tag : Wording (.otherwiseIf condition), ∃ ts,
    Token.ofText slice = tag.tokens ++ ts

end Block

/-- The blocks cover the template. -/
structure Coverage (source : String) (blocks : List Block) : Prop where
  /-- The blocks tile the template. -/
  tiles : Block.Tiles .start blocks (Position.start.after source.toList)
  /-- Only the empty template has no blocks. -/
  eq_empty : blocks = [] → source = ""
  /-- The bodies of each block, at whatever depth, are tiled and lie within its span. -/
  bodies : ∀ row, Block.Row blocks row → ∀ b ∈ row, ∀ body, b.HasBody body →
    (∃ p q, Block.Tiles p body q) ∧ ∀ inner ∈ body, b.span.Encloses inner.span
  /-- No row holds two runs of text side by side. -/
  texts : ∀ row, Block.Row blocks row →
    row.IsChain fun a b => ¬ (a.isText = true ∧ b.isText = true)
  /-- Each block has its slice of the template.  A run of text is its slice, which is not empty and
  opens no tag; from the slice of any block on its own this one block is read. -/
  slices : ∀ row, Block.Row blocks row → ∀ b ∈ row, ∃ slice, b.span.Covers source slice ∧
    (∀ content span, b = .text content span →
      content.toList = slice ∧ slice ≠ [] ∧ ¬ ['{', '{'] <:+: slice) ∧
    (¬ b.ContinuesChain slice → ∀ name,
      parse (String.ofList slice) name = .ok [b.relocate (·.relativeTo b.span.start)])

/-! ### Places in order -/

lemma Position.Precedes.trans {p q r : Position} (h : p.Precedes q) (h' : q.Precedes r) :
    p.Precedes r := by
  obtain ⟨hoffset, hline⟩ := h
  obtain ⟨hoffset', hline'⟩ := h'
  exact ⟨hoffset.trans hoffset', by omega⟩

lemma Position.precedes_next (p : Position) (c : Char) : p.Precedes (p.next c) := by
  refine ⟨Nat.le_add_right _ _, ?_⟩
  by_cases hc : c = '\n'
  · exact Or.inl (by simp [next, hc])
  · exact Or.inr ⟨by simp [next, hc], by simp [next, hc]⟩

lemma Position.precedes_after (p : Position) (cs : List Char) : p.Precedes (p.after cs) := by
  induction cs generalizing p with
  | nil => exact ⟨le_refl _, Or.inr ⟨rfl, le_refl _⟩⟩
  | cons c cs ih => exact (p.precedes_next c).trans (ih (p.next c))

/-- A text that takes up no bytes is empty. -/
lemma Position.eq_nil_of_after {p : Position} {cs : List Char} (h : p.after cs = p) : cs = [] := by
  cases cs with
  | nil => rfl
  | cons c cs =>
    have hle : (p.next c).offset ≤ p.offset := by
      have hafter := (precedes_after (p.next c) cs).1
      rwa [show (p.next c).after cs = p from h] at hafter
    have hpos := Char.utf8Size_pos c
    simp only [next] at hle
    omega

/-! ### Text that opens no tag -/

/-- Tokens of text that keep apart have no two opening braces side by side. -/
lemma isChain_text {run : List Token} (hrun : ∀ t ∈ run, t.isText = true)
    (hchain : run.IsChain Token.Apart) :
    (run.flatMap Token.text).IsChain fun c d => ¬ (c = '{' ∧ d = '{') := by
  induction run with
  | nil => exact List.isChain_nil
  | cons t run ih =>
    rw [Token.isChain_cons_iff] at hchain
    rw [List.flatMap_cons]
    refine List.IsChain.append ?_ (ih (fun u hu => hrun u (by simp [hu])) hchain.2) ?_
    · cases t with
      | character c => simp [Token.text]
      | opening fence => simp [Token.isText] at hrun
      | closing fence => cases fence <;> simp [Token.text, Fence.closing]
    · -- a token that ends with an opening brace is that brace, and a second one would extend it
      rintro c hc d hd ⟨rfl, rfl⟩
      cases t with
      | character c =>
        obtain rfl : c = '{' := by simpa [Token.text] using hc
        exact hchain.1 '{' (by simp [Token.extension?]) hd
      | opening fence => simp [Token.isText] at hrun
      | closing fence => cases fence <;> simp [Token.text, Fence.closing] at hc

lemma not_infix_text {run : List Token} (hrun : ∀ t ∈ run, t.isText = true)
    (hchain : run.IsChain Token.Apart) : ¬ ['{', '{'] <:+: run.flatMap Token.text := by
  rintro ⟨before, after, htext⟩
  have h := isChain_text hrun hchain
  rw [← htext] at h
  simpa using h.left_of_append.right_of_append

namespace Derivation

variable {n : Part} {p : Position}

/-! ### Rows of blocks -/

lemma tiles_blocks (d : Derivation .body) (p : Position) :
    Block.Tiles p (d.blocks p) (p.after d.source) := by
  induction d using body_induction generalizing p with
  | nil => rfl
  | text run hne hrun rest ih =>
    rw [source_text, Position.after_append]
    exact ⟨rfl, ih _⟩
  | field path hne tag rest ih =>
    rw [source_field, Position.after_append]
    exact ⟨rfl, ih _⟩
  | markdown contents hne rest ih =>
    rw [source_markdown, Position.after_append]
    exact ⟨rfl, ih _⟩
  | conditional condition hne tag consequence ending rest ih =>
    rw [source_conditional, Position.after_append, Position.after_append, Position.after_append]
    exact ⟨rfl, ih _⟩
  | loop name hne tag body closing rest ih =>
    rw [source_loop, Position.after_append, Position.after_append, Position.after_append]
    exact ⟨rfl, ih _⟩

lemma exists_tiles (d : Derivation n) (p : Position) : ∃ q r, Block.Tiles q (d.blocks p) r := by
  cases n with
  | body => exact ⟨_, _, tiles_blocks d p⟩
  | ending =>
    cases d with
    | close tag => exact ⟨p, p, rfl⟩
    | otherwise tag alternative closing => exact ⟨_, _, tiles_blocks alternative _⟩
    | otherwiseIf condition hne tag consequence ending => exact ⟨p, _, rfl, rfl⟩

lemma isChain_blocks_body (d : Derivation .body) (hmax : d.Maximal) (p : Position) :
    (d.blocks p).IsChain fun a b => ¬ (a.isText = true ∧ b.isText = true) := by
  induction d using body_induction generalizing p with
  | nil => exact List.isChain_nil
  | text run hne hrun rest ih =>
    refine List.isChain_cons.2 ⟨fun b hb => ?_, ih hmax.2 _⟩
    simp [isText_head_blocks rest hmax.1 _ b hb]
  | field path hne tag rest ih => exact List.isChain_cons.2 ⟨by simp [Block.isText], ih hmax _⟩
  | markdown contents hne rest ih => exact List.isChain_cons.2 ⟨by simp [Block.isText], ih hmax _⟩
  | conditional condition hne tag consequence ending rest ih =>
    exact List.isChain_cons.2 ⟨by simp [Block.isText], ih hmax.2.2 _⟩
  | loop name hne tag body closing rest ih =>
    exact List.isChain_cons.2 ⟨by simp [Block.isText], ih hmax.2 _⟩

lemma isChain_blocks (d : Derivation n) (hmax : d.Maximal) (p : Position) :
    (d.blocks p).IsChain fun a b => ¬ (a.isText = true ∧ b.isText = true) := by
  cases n with
  | body => exact isChain_blocks_body d hmax p
  | ending =>
    cases d with
    | close tag => exact List.isChain_nil
    | otherwise tag alternative closing => exact isChain_blocks_body alternative hmax _
    | otherwiseIf condition hne tag consequence ending => exact List.isChain_singleton _

/-! ### Spans of derivations within another one -/

variable {m : Part} {e : Derivation m} {d : Derivation n} {q : Position}

lemma Within.encloses (h : e.Within q d p) :
    Span.Encloses ⟨p, p.after d.source⟩ ⟨q, q.after e.source⟩ := by
  obtain ⟨before, after, htokens, rfl⟩ := h.tokens_eq
  have hfinish : p.after d.source =
      ((p.after (before.flatMap Token.text)).after e.source).after (after.flatMap Token.text) := by
    rw [source, htokens]
    simp only [List.flatMap_append, Position.after_append, source]
  refine ⟨Position.precedes_after _ _, Position.precedes_after _ _, ?_⟩
  rw [hfinish]
  exact Position.precedes_after _ _

lemma Within.covers {d : Derivation .body} {source : String} (h : e.Within q d .start)
    (hd : d.Derives source) : Span.Covers ⟨q, q.after e.source⟩ source e.source := by
  obtain ⟨before, after, htokens, rfl⟩ := h.tokens_eq
  refine ⟨before.flatMap Token.text, after.flatMap Token.text, ?_, rfl, rfl⟩
  rw [← hd.source_eq, Derivation.source, htokens]
  simp only [List.flatMap_append, Derivation.source]

lemma Within.isChain (h : e.Within q d p) (hchain : d.tokens.IsChain Token.Apart) :
    e.tokens.IsChain Token.Apart := by
  obtain ⟨before, after, htokens, -⟩ := h.tokens_eq
  rw [htokens] at hchain
  exact hchain.left_of_append.right_of_append

/-! ### The slice of a single block -/

variable {b : Block}

/-- The bodies of a block are tiled and lie within its span. -/
lemma IsItem.encloses (h : e.IsItem) (hb : e.blocks q = [b]) {body : List Block}
    (hbody : b.HasBody body) :
    (∃ r s, Block.Tiles r body s) ∧ ∀ inner ∈ body, b.span.Encloses inner.span := by
  obtain ⟨l, f, r, hwithin, rfl⟩ := h.exists_body hb hbody
  refine ⟨f.exists_tiles r, fun inner hmem => ?_⟩
  -- the inner block stands within its body, and that within the block
  obtain ⟨k, g, s, hinner, hwithin', hblock⟩ := f.hasItem_of_mem hmem
  rw [h.span_eq hb, hinner.span_eq hblock]
  exact (hwithin'.trans hwithin).encloses

/-- A run of text is its slice. -/
lemma IsItem.slice_text (h : e.IsItem) (hchain : e.tokens.IsChain Token.Apart) {content : String}
    {span : Span} (hb : e.blocks q = [.text content span]) :
    content.toList = e.source ∧ e.source ≠ [] ∧ ¬ ['{', '{'] <:+: e.source := by
  obtain ⟨hne, hrun, rfl⟩ := h.exists_run hb
  refine ⟨String.toList_ofList, ?_, not_infix_text hrun hchain⟩
  obtain ⟨t, ts, htokens⟩ := List.exists_cons_of_ne_nil hne
  simp [source, htokens]

/-- From the slice of a block its derivation is read on its own. -/
lemma IsItem.parse_slice (h : e.IsItem) (hmax : e.Maximal)
    (hchain : e.tokens.IsChain Token.Apart) (hdepth : e.depth ≤ Draft.maxDepth)
    (hb : e.blocks q = [b]) (hchains : ¬ b.ContinuesChain e.source) (name : String) :
    parse (String.ofList e.source) name = .ok [b.relocate (·.relativeTo q)] := by
  -- a further condition of a chain is the only block that is no item of a body
  cases m with
  | body =>
    refine parse_eq_ok_iff.2 ⟨e, derives_of_isChain hmax hchain, hdepth, ?_⟩
    rw [← e.blocks_relocate (Position.moves_relativeTo q), hb]
    rfl
  | ending =>
    obtain ⟨condition, hne, tag, consequence, ending, rfl⟩ := h.eq_otherwiseIf
    have hconditional := (List.singleton_inj.1 hb).symm
    have htokens : Token.ofText
        (Derivation.otherwiseIf condition hne tag consequence ending).source =
        tag.tokens ++ (consequence.tokens ++ ending.tokens) := by
      rw [Derivation.source, Token.ofText_flatMap_text hchain]
      simp only [Derivation.tokens, List.append_assoc]
    exact absurd ⟨⟨_, _, _, _, hconditional⟩, condition, tag, _, htokens⟩ hchains

end Derivation

/-- **Coverage.**  The blocks that are read from a template cover it without gap or overlap, at
every depth, and the slice of each block is the template of that block. -/
theorem coverage_of_parse {source name : String} {blocks : List Block}
    (h : parse source name = .ok blocks) : Coverage source blocks := by
  obtain ⟨d, hd, hdepth, rfl⟩ := parse_eq_ok_iff.1 h
  have htiles := d.tiles_blocks .start
  rw [hd.source_eq] at htiles
  refine ⟨htiles, ?_, ?_, ?_, ?_⟩
  · intro hnil
    rw [hnil] at htiles
    exact String.toList_eq_nil_iff.1 (Position.eq_nil_of_after htiles.symm)
  · intro row hrow b hb body hbody
    obtain ⟨m, e, q, hitem, -, hblock⟩ := Derivation.hasItem_of_row hrow hb
    exact hitem.encloses hblock hbody
  · intro row hrow
    obtain ⟨m, e, q, hwithin, rfl⟩ := Derivation.exists_derivation hrow
    exact e.isChain_blocks (hwithin.maximal hd.maximal) q
  · intro row hrow b hb
    obtain ⟨m, e, q, hitem, hwithin, hblock⟩ := Derivation.hasItem_of_row hrow hb
    have hchain := hwithin.isChain hd.isChain
    have hspan := hitem.span_eq hblock
    refine ⟨e.source, hspan ▸ hwithin.covers hd, ?_, fun hchains name => ?_⟩
    · rintro content span rfl
      exact hitem.slice_text hchain hblock
    · rw [hspan]
      exact hitem.parse_slice (hwithin.maximal hd.maximal) hchain (hwithin.depth_le.trans hdepth)
        hblock hchains name

/-- The template `Hi {{#if a}}x{{elseif b}}y{{/if}}`, with a line feed behind the `y`. -/
theorem coverage_of_parse_chain :
    Coverage "Hi \x7b\x7b#if a\x7d\x7dx\x7b\x7belseif b\x7d\x7dy\n\x7b\x7b/if\x7d\x7d"
      [.text "Hi " ⟨.start, ⟨1, 3, 3⟩⟩,
        .conditional "a" [.text "x" ⟨⟨1, 12, 12⟩, ⟨1, 13, 13⟩⟩]
          [.conditional "b" [.text "y\n" ⟨⟨1, 25, 25⟩, ⟨2, 0, 27⟩⟩] []
            ⟨⟨1, 13, 13⟩, ⟨2, 7, 34⟩⟩]
          ⟨⟨1, 3, 3⟩, ⟨2, 7, 34⟩⟩] :=
  coverage_of_parse (show parse _ "chain" = .ok _ from rfl)

end Template
end FormLetter

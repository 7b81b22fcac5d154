/-
# Derivations within a derivation

Every row of blocks in a tree, at whatever depth, consists of the blocks of a derivation that stands
within the derivation of the whole tree (`exists_derivation`), and so does every single block
(`hasItem_of_mem`).  The tokens of the inner derivation are some of those of the outer one, in a
row; so what is known of the text of a whole template is known of the text of each of its blocks.
-/
import FormLetter.Proofs.Grammar.Derivation

namespace FormLetter
namespace Template

namespace Block

/-- The bodies of a block. -/
inductive HasBody : Block → List Block → Prop
  | consequence (condition : String) (consequence alternative : List Block) (span : Span) :
    HasBody (.conditional condition consequence alternative span) consequence
  | alternative (condition : String) (consequence alternative : List Block) (span : Span) :
    HasBody (.conditional condition consequence alternative span) alternative
  | loop (source : String) (body : List Block) (span : Span) : HasBody (.loop source body span) body

/-- The rows of blocks in a tree: the tree itself, and the bodies of all blocks in its rows. -/
inductive Row (tree : List Block) : List Block → Prop
  | root : Row tree tree
  | body {row body : List Block} {b : Block} (hrow : Row tree row) (hb : b ∈ row)
      (hbody : b.HasBody body) : Row tree body

end Block

namespace Derivation

variable {l m n : Part} {p q r : Position}

/-- The derivation `e`, standing at `q`, is a part of the derivation `d`, standing at `p`. -/
structure Within (e : Derivation m) (q : Position) (d : Derivation n) (p : Position) : Prop where
  tokens_eq : ∃ before after, d.tokens = before ++ e.tokens ++ after ∧
    q = p.after (before.flatMap Token.text)
  maximal : d.Maximal → e.Maximal
  depth_le : e.depth ≤ d.depth

lemma Within.refl (d : Derivation n) (p : Position) : d.Within p d p :=
  ⟨⟨[], [], by simp, rfl⟩, id, le_refl _⟩

lemma Within.trans {f : Derivation l} {e : Derivation m} {d : Derivation n}
    (hf : f.Within r e q) (he : e.Within q d p) : f.Within r d p := by
  obtain ⟨before, after, htokens, rfl⟩ := he.tokens_eq
  obtain ⟨before', after', htokens', rfl⟩ := hf.tokens_eq
  refine ⟨⟨before ++ before', after' ++ after, ?_, ?_⟩, fun h => hf.maximal (he.maximal h),
    hf.depth_le.trans he.depth_le⟩
  · rw [htokens, htokens']
    simp only [List.append_assoc]
  · rw [List.flatMap_append, Position.after_append]

/-! ### The parts of a derivation, by its root -/

/-- The derivation of a single block: an item, or a further condition of a chain. -/
inductive IsItem : {n : Part} → Derivation n → Prop
  | text (run hne hrun) : IsItem (.text run hne hrun .nil)
  | field (path hne tag) : IsItem (.field path hne tag .nil)
  | markdown (contents hne) : IsItem (.markdown contents hne .nil)
  | conditional (condition hne tag consequence ending) :
    IsItem (.conditional condition hne tag consequence ending .nil)
  | loop (source hne tag body closing) : IsItem (.loop source hne tag body closing .nil)
  | otherwiseIf (condition hne tag consequence ending) :
    IsItem (.otherwiseIf condition hne tag consequence ending)

section

variable (rest consequence body alternative : Derivation .body) (ending : Derivation .ending)

lemma within_rest_text (run hne hrun) :
    rest.Within (p.after (run.flatMap Token.text)) (text run hne hrun rest) p :=
  ⟨⟨run, [], by simp [tokens], rfl⟩, And.right, le_refl _⟩

lemma within_rest_field (path hne) (tag : Wording (.path path)) :
    rest.Within (p.after tag.source) (field path hne tag rest) p :=
  ⟨⟨tag.tokens, [], by simp [tokens], by simp⟩, id, le_refl _⟩

lemma within_rest_markdown (contents hne) :
    rest.Within (p.after (Fence.markdown.enclose contents)) (markdown contents hne rest) p :=
  ⟨⟨Fence.markdown.tag contents, [], by simp [tokens], by simp⟩, id, le_refl _⟩

lemma within_rest_conditional (condition hne) (tag : Wording (.directive "if" condition)) :
    rest.Within (((p.after tag.source).after consequence.source).after ending.source)
      (conditional condition hne tag consequence ending rest) p := by
  refine ⟨⟨tag.tokens ++ consequence.tokens ++ ending.tokens, [], by simp [tokens], ?_⟩,
    fun h => h.2.2, le_max_right _ _⟩
  simp [Position.after_append, source]

lemma within_rest_loop (name hne) (tag : Wording (.directive "each" name)) (closing) :
    rest.Within (((p.after tag.source).after body.source).after closing.source)
      (loop name hne tag body closing rest) p := by
  refine ⟨⟨tag.tokens ++ body.tokens ++ closing.tokens, [], by simp [tokens], ?_⟩, And.right,
    le_max_right _ _⟩
  simp [Position.after_append, source]

lemma within_consequence (condition hne) (tag : Wording (.directive "if" condition)) :
    consequence.Within (p.after tag.source)
      (conditional condition hne tag consequence ending rest) p :=
  ⟨⟨tag.tokens, ending.tokens ++ rest.tokens, by simp [tokens], by simp⟩, And.left,
    by simp only [depth]; omega⟩

lemma within_ending (condition hne) (tag : Wording (.directive "if" condition)) :
    ending.Within ((p.after tag.source).after consequence.source)
      (conditional condition hne tag consequence ending rest) p :=
  ⟨⟨tag.tokens ++ consequence.tokens, rest.tokens, by simp [tokens],
    by simp [Position.after_append, source]⟩, fun h => h.2.1, by simp only [depth]; omega⟩

lemma within_body (name hne) (tag : Wording (.directive "each" name)) (closing) :
    body.Within (p.after tag.source) (loop name hne tag body closing rest) p :=
  ⟨⟨tag.tokens, closing.tokens ++ rest.tokens, by simp [tokens], by simp⟩, And.left,
    by simp only [depth]; omega⟩

lemma within_alternative (tag closing) :
    alternative.Within (p.after tag.source) (otherwise tag alternative closing) p :=
  ⟨⟨tag.tokens, closing.tokens, by simp [tokens], by simp⟩, id, le_refl _⟩

lemma within_consequence_otherwiseIf (condition hne) (tag : Wording (.otherwiseIf condition)) :
    consequence.Within (p.after tag.source)
      (otherwiseIf condition hne tag consequence ending) p :=
  ⟨⟨tag.tokens, ending.tokens, by simp [tokens], by simp⟩, And.left, by simp only [depth]; omega⟩

lemma within_ending_otherwiseIf (condition hne) (tag : Wording (.otherwiseIf condition)) :
    ending.Within ((p.after tag.source).after consequence.source)
      (otherwiseIf condition hne tag consequence ending) p :=
  ⟨⟨tag.tokens ++ consequence.tokens, [], by simp [tokens],
    by simp [Position.after_append, source]⟩, And.right, by simp only [depth]; omega⟩

end

/-! ### Single blocks -/

/-- Within the derivation stands one of the given block only. -/
def HasItem (d : Derivation n) (p : Position) (b : Block) : Prop :=
  ∃ (m : Part) (e : Derivation m) (q : Position), e.IsItem ∧ e.Within q d p ∧ e.blocks q = [b]

lemma HasItem.of_within {e : Derivation m} {d : Derivation n} {b : Block} (h : e.HasItem q b)
    (hwithin : e.Within q d p) : d.HasItem p b := by
  obtain ⟨l, f, r, hitem, hf, hblocks⟩ := h
  exact ⟨l, f, r, hitem, hf.trans hwithin, hblocks⟩

/-- A body starts with the derivation of its first block. -/
lemma hasItem_first {d e : Derivation .body} {b : Block} (hitem : e.IsItem)
    (htokens : ∃ after, d.tokens = e.tokens ++ after) (hmax : d.Maximal → e.Maximal)
    (hdepth : e.depth ≤ d.depth) (hblocks : e.blocks p = [b]) : d.HasItem p b := by
  obtain ⟨after, htokens⟩ := htokens
  exact ⟨_, e, p, hitem, ⟨⟨[], after, by simpa using htokens, rfl⟩, hmax, hdepth⟩, hblocks⟩

/-- Each block comes from a derivation of this block only. -/
theorem hasItem_of_mem (d : Derivation n) {b : Block} (hb : b ∈ d.blocks p) : d.HasItem p b := by
  -- the block is the first item of a body, or it is found behind that item
  induction d generalizing p with
  | nil => simp [blocks] at hb
  | text run hne hrun rest ih =>
    rcases List.mem_cons.1 hb with rfl | hb
    · -- on its own the run is maximal, whatever stood behind it
      exact hasItem_first (.text run hne hrun) ⟨rest.tokens, by simp [tokens]⟩
        (fun _ => ⟨endsText_nil, trivial⟩) (Nat.zero_le _) rfl
    · exact (ih hb).of_within (within_rest_text rest run hne hrun)
  | field path hne tag rest ih =>
    rcases List.mem_cons.1 hb with rfl | hb
    · exact hasItem_first (.field path hne tag) ⟨rest.tokens, by simp [tokens]⟩ (fun _ => trivial)
        (Nat.zero_le _) rfl
    · exact (ih hb).of_within (within_rest_field rest path hne tag)
  | markdown contents hne rest ih =>
    rcases List.mem_cons.1 hb with rfl | hb
    · exact hasItem_first (.markdown contents hne) ⟨rest.tokens, by simp [tokens]⟩
        (fun _ => trivial) (Nat.zero_le _) rfl
    · exact (ih hb).of_within (within_rest_markdown rest contents hne)
  | conditional condition hne tag consequence ending rest ih₁ ih₂ ih₃ =>
    rcases List.mem_cons.1 hb with rfl | hb
    · exact hasItem_first (.conditional condition hne tag consequence ending)
        ⟨rest.tokens, by simp [tokens]⟩ (fun h => ⟨h.1, h.2.1, trivial⟩)
        (by simp only [depth]; omega) rfl
    · exact (ih₃ hb).of_within (within_rest_conditional rest consequence ending condition hne tag)
  | loop name hne tag body closing rest ih₁ ih₂ =>
    rcases List.mem_cons.1 hb with rfl | hb
    · exact hasItem_first (.loop name hne tag body closing) ⟨rest.tokens, by simp [tokens]⟩
        (fun h => ⟨h.1, trivial⟩) (by simp only [depth]; omega) rfl
    · exact (ih₂ hb).of_within (within_rest_loop rest body name hne tag closing)
  | close tag => simp [blocks] at hb
  | otherwise tag alternative closing ih =>
    exact (ih hb).of_within (within_alternative alternative tag closing)
  | otherwiseIf condition hne tag consequence ending ih₁ ih₂ =>
    obtain rfl := List.mem_singleton.1 hb
    exact ⟨_, _, p, .otherwiseIf condition hne tag consequence ending, .refl _ _, rfl⟩

variable {e : Derivation m} {b : Block}

lemma IsItem.span_eq (h : e.IsItem) (hb : e.blocks q = [b]) : b.span = ⟨q, q.after e.source⟩ := by
  cases h <;> obtain rfl := List.singleton_inj.1 hb.symm <;>
    simp [Block.span, Position.after_append]

/-- The bodies of a block stand within its derivation. -/
lemma IsItem.exists_body (h : e.IsItem) (hb : e.blocks q = [b]) {body : List Block}
    (hbody : b.HasBody body) :
    ∃ (l : Part) (f : Derivation l) (r : Position), f.Within r e q ∧ f.blocks r = body := by
  cases h with
  | text run hne hrun =>
    obtain rfl := List.singleton_inj.1 hb.symm
    cases hbody
  | field path hne tag =>
    obtain rfl := List.singleton_inj.1 hb.symm
    cases hbody
  | markdown contents hne =>
    obtain rfl := List.singleton_inj.1 hb.symm
    cases hbody
  | conditional condition hne tag consequence ending =>
    obtain rfl := List.singleton_inj.1 hb.symm
    cases hbody with
    | consequence => exact ⟨_, _, _, within_consequence _ _ _ _ _ _, rfl⟩
    | alternative => exact ⟨_, _, _, within_ending _ _ _ _ _ _, rfl⟩
  | loop name hne tag body closing =>
    obtain rfl := List.singleton_inj.1 hb.symm
    cases hbody with
    | loop => exact ⟨_, _, _, within_body _ _ _ _ _ _, rfl⟩
  | otherwiseIf condition hne tag consequence ending =>
    obtain rfl := List.singleton_inj.1 hb.symm
    cases hbody with
    | consequence => exact ⟨_, _, _, within_consequence_otherwiseIf _ _ _ _ _, rfl⟩
    | alternative => exact ⟨_, _, _, within_ending_otherwiseIf _ _ _ _ _, rfl⟩

/-- A block of text comes from a run of text. -/
lemma IsItem.exists_run (h : e.IsItem) {content : String} {span : Span}
    (hb : e.blocks q = [.text content span]) :
    e.tokens ≠ [] ∧ (∀ t ∈ e.tokens, t.isText = true) ∧ content = String.ofList e.source := by
  cases h with
  | text run hne hrun =>
    obtain ⟨rfl, -⟩ := Block.text.inj (List.singleton_inj.1 hb)
    simpa [tokens] using ⟨hne, hrun⟩
  | _ => cases List.singleton_inj.1 hb

/-- A block that is not the item of a body is a further condition of a chain. -/
lemma IsItem.eq_otherwiseIf {e : Derivation .ending} (h : e.IsItem) :
    ∃ condition hne tag consequence ending,
      e = .otherwiseIf condition hne tag consequence ending := by
  cases h
  exact ⟨_, _, _, _, _, rfl⟩

/-! ### Rows of blocks -/

/-- Each row of blocks in a tree comes from a derivation within that of the tree. -/
theorem exists_derivation {d : Derivation n} {row : List Block}
    (h : Block.Row (d.blocks p) row) :
    ∃ (m : Part) (e : Derivation m) (q : Position), e.Within q d p ∧ e.blocks q = row := by
  induction h with
  | root => exact ⟨n, d, p, .refl d p, rfl⟩
  | body hrow hb hbody ih =>
    obtain ⟨m, e, q, hwithin, rfl⟩ := ih
    obtain ⟨l, f, r, hitem, hwithin', hblock⟩ := e.hasItem_of_mem hb
    obtain ⟨k, g, s, hwithin'', hblocks⟩ := hitem.exists_body hblock hbody
    exact ⟨k, g, s, (hwithin''.trans hwithin').trans hwithin, hblocks⟩

/-- So does each block in such a row. -/
lemma hasItem_of_row {d : Derivation n} {row : List Block} (h : Block.Row (d.blocks p) row)
    {b : Block} (hb : b ∈ row) : d.HasItem p b := by
  obtain ⟨m, e, q, hwithin, rfl⟩ := exists_derivation h
  exact (e.hasItem_of_mem hb).of_within hwithin

end Derivation
end Template
end FormLetter

/-
# Chains of conditions

A chain is an `if` tag, any number of `elseif` tags, and perhaps an `else` tag, each with a body
behind it; one tag closes them all.  The bodies are templates of their own.  In the chain they are
read as they are alone, only further down: its tree has the trees of the bodies in it, in conditions
that are nested in each other (`Chain.parse_source`).
-/
import FormLetter.Proofs.Printing.Reading

namespace FormLetter
namespace Template

open Text (Trimmed Ink)

/-! ### Chains written out -/

/-- A template that can stand between two tags: it has no brace that would become part of the tag in
front of it or of the tag behind it. -/
structure Body where
  source : String
  blocks : List Block
  compiled : compile source = .ok blocks
  head_ne : '}' ∉ source.toList.head?
  last_ne : '{' ∉ source.toList.getLast?

/-- A condition of a chain, and the body under it. -/
structure Clause where
  condition : String
  ne_empty : condition ≠ ""
  trimmed : Trimmed condition.toList
  unbraced : ∀ c ∈ condition.toList, c ≠ '{' ∧ c ≠ '}'
  body : Body

/-- The tag of a condition that is introduced by the given word. -/
def Clause.tag (word : String) (c : Clause) : String :=
  "\x7b\x7b" ++ word ++ " " ++ c.condition ++ "\x7d\x7d"

/-- Clauses written out, the first one with the given word and the others with `elseif`. -/
def Clause.texts (word : String) : List Clause → String
  | [] => ""
  | c :: clauses => c.tag word ++ c.body.source ++ texts "elseif" clauses

/-- What stands behind the clauses of a chain. -/
def endingText (alternative : Option Body) : String :=
  (alternative.elim "" fun b => "\x7b\x7belse\x7d\x7d" ++ b.source) ++ "\x7b\x7b/if\x7d\x7d"

/-- How many blocks are open at once in a chain.  Each of its conditions is open up to the end, so
what stands behind the first one is one block deeper. -/
def nesting (alternative : Option Body) : List Clause → Nat
  | [] => Block.depths (alternative.elim [] Body.blocks)
  | c :: clauses => max (Block.depths c.body.blocks) (nesting alternative clauses) + 1

/-- A chain of conditions that keeps no more blocks open than allowed. -/
structure Chain where
  clauses : List Clause
  alternative : Option Body
  ne_nil : clauses ≠ []
  nesting_le : nesting alternative clauses ≤ Draft.maxDepth

/-- The chain written out. -/
def Chain.source (chain : Chain) : String :=
  Clause.texts "#if" chain.clauses ++ endingText chain.alternative

/-- The tree of clauses that start at `p`, the first one with the given word, and of what stands
behind them in a chain. -/
def tree (alternative : Option Body) : String → List Clause → Position → List Block
  | _, [], p =>
    alternative.elim [] fun b =>
      Block.relocateAll (p.after "\x7b\x7belse\x7d\x7d".toList).plus b.blocks
  | word, c :: clauses, p =>
    let q₁ := p.after (c.tag word).toList
    let q₂ := q₁.after c.body.source.toList
    let q := q₂.after (Clause.texts "elseif" clauses ++ endingText alternative).toList
    [.conditional c.condition (Block.relocateAll q₁.plus c.body.blocks)
      (tree alternative "elseif" clauses q₂) ⟨p, q⟩]

/-- The tree of the chain. -/
def Chain.blocks (chain : Chain) : List Block :=
  tree chain.alternative "#if" chain.clauses .start

/-! ### The tags of a chain -/

/-- The tokens of a tag without braces in it. -/
lemma ofText_wording {tag : Tag} (w : Wording tag) (h : Inert w.contents) :
    Token.ofText w.source = w.tokens := by
  have hchain : w.tokens.IsChain Token.Apart := isChain_tag_of_ends .plain (isChain_word h)
    (fun c hc => h c (List.mem_of_mem_head? hc)) fun c hc => h c (List.mem_of_getLast? hc)
  rw [← Derivation.flatMap_text_wording, Token.ofText_flatMap_text hchain]

namespace Clause

variable (c : Clause)

/-- What a tag says does not depend on blanks around it. -/
lemma classify_tag {word : List Char} (hne : word ≠ []) (hword : Ink word) {tag : Tag}
    (h : Tag.classify ([' '] ++ (word ++ [' '] ++ c.condition.toList) ++ [' ']) = tag) :
    Tag.classify (word ++ [' '] ++ c.condition.toList) = tag := by
  have hnil : c.condition.toList ≠ [] := String.toList_eq_nil_iff.not.2 c.ne_empty
  have htrimmed : Trimmed (word ++ [' '] ++ c.condition.toList) :=
    Text.trimmed_words hne hword hnil c.trimmed
  rw [← h, Tag.classify_pad gap_space gap_space htrimmed]

/-- The tag of the first condition of a chain. -/
def ifTag : Wording (.directive "if" c.condition) where
  contents := "#if".toList ++ [' '] ++ c.condition.toList
  classified := c.classify_tag (by decide) (by decide)
    (Tag.classify_directive "if" (by decide) c.ne_empty c.trimmed gap_space gap_space gap_space)

/-- The tag of a further condition of a chain. -/
def elseIfTag : Wording (.otherwiseIf c.condition) where
  contents := "elseif".toList ++ [' '] ++ c.condition.toList
  classified := c.classify_tag (by decide) (by decide)
    (Tag.classify_otherwiseIf c.ne_empty c.trimmed gap_space gap_space gap_space)

lemma inert_words {word : List Char} (hword : Inert word) :
    Inert (word ++ [' '] ++ c.condition.toList) := by
  intro d hd
  rcases List.mem_append.1 hd with hd | hd
  · rcases List.mem_append.1 hd with hd | hd
    · exact hword d hd
    · exact inert_of_gap gap_space d hd
  · simp [Token.extension?, c.unbraced d hd]

lemma toList_tag (word : String) :
    (c.tag word).toList = Fence.plain.enclose (word.toList ++ [' '] ++ c.condition.toList) := by
  simp [tag, Fence.enclose, Fence.opening, Fence.closing]

end Clause

/-- The tag of the alternative at the end of a chain. -/
def elseTag : Wording (.otherwise "") := ⟨"else".toList, by rfl⟩

/-- The tag at the end of a chain. -/
def closeTag : Wording (.close "if") := ⟨"/if".toList, by rfl⟩

/-! ### The derivation of a chain -/

/-- The derivation is one of the text, nests blocks to the given depth, and gives the blocks wherever
the text stands. -/
structure Derivation.Spells {n : Part} (d : Derivation n) (text : String) (depth : Nat)
    (blocks : Position → List Block) : Prop where
  maximal : d.Maximal
  tokens_eq : d.tokens = Token.ofText text.toList
  depth_eq : d.depth = depth
  blocks_eq : ∀ p, d.blocks p = blocks p

lemma Derivation.Spells.source_eq {n : Part} {d : Derivation n} {text : String} {depth : Nat}
    {blocks : Position → List Block} (h : d.Spells text depth blocks) : d.source = text.toList := by
  rw [Derivation.source, h.tokens_eq, Token.ofText_text]

lemma Body.exists_derivation (b : Body) :
    ∃ d : Derivation .body, d.Spells b.source (Block.depths b.blocks) fun q =>
      Block.relocateAll q.plus b.blocks := by
  obtain ⟨d, hd, -, hblocks⟩ := parse_eq_ok_iff.1 b.compiled
  refine ⟨d, hd.maximal, hd.tokens_eq, ?_, fun q => ?_⟩
  · rw [← hblocks, d.depths_blocks]
  · rw [← hblocks, d.blocks_relocate (Position.moves_plus q)]

/-- A body between two tags keeps its tokens. -/
lemma ofText_between {tag : Tag} {w : Wording tag} (hw : Inert w.contents) (b : Body)
    {cs : List Char} (hcs : cs.head? = some '{') :
    Token.ofText (w.source ++ b.source.toList ++ cs) =
      w.tokens ++ Token.ofText b.source.toList ++ Token.ofText cs := by
  have hlast : w.source.getLast? = some '}' := by simp [Wording.source, Fence.enclose, Fence.closing]
  have hbehind : ∀ c ∈ b.source.toList.getLast?, ∀ d ∈ cs.head?, ¬ Token.Joins c d := by
    rintro c hc d hd ⟨rfl, -⟩
    obtain rfl : '{' = c := Option.some.inj (hcs.symm.trans hd)
    exact b.last_ne hc
  have hfront : ∀ c ∈ w.source.getLast?, ∀ d ∈ (b.source.toList ++ cs).head?,
      ¬ Token.Joins c d := by
    rintro c hc d hd ⟨rfl, -⟩
    obtain rfl : '}' = c := Option.some.inj (hlast.symm.trans hc)
    -- if the body is empty, the tag meets the one behind it
    cases hbody : b.source.toList with
    | nil =>
      rw [hbody, List.nil_append, hcs] at hd
      exact absurd hd (by decide)
    | cons e es =>
      rw [hbody, List.cons_append, List.head?_cons] at hd
      exact b.head_ne (by rwa [hbody, List.head?_cons])
  rw [List.append_assoc, Token.ofText_append hfront, Token.ofText_append hbehind,
    ofText_wording w hw, List.append_assoc]

/-- A chain goes on and ends with tags. -/
lemma head?_texts (alternative : Option Body) (word : String) (clauses : List Clause) :
    (Clause.texts word clauses ++ endingText alternative).toList.head? = some '{' := by
  cases clauses with
  | nil => cases alternative <;> simp [Clause.texts, endingText]
  | cons c clauses => simp [Clause.texts, Clause.tag]

/-- The tokens of a clause with others behind it. -/
lemma ofText_texts {tag : Tag} {w : Wording tag} {word : String} {c : Clause}
    {clauses : List Clause} {alternative : Option Body} {ts us : List Token}
    (hw : Inert w.contents) (hsource : w.source = (c.tag word).toList)
    (hts : ts = Token.ofText c.body.source.toList)
    (hus : us = Token.ofText (Clause.texts "elseif" clauses ++ endingText alternative).toList) :
    Token.ofText (Clause.texts word (c :: clauses) ++ endingText alternative).toList =
      w.tokens ++ ts ++ us := by
  have hbetween := ofText_between hw c.body (head?_texts alternative "elseif" clauses)
  have htext : (Clause.texts word (c :: clauses) ++ endingText alternative).toList =
      w.source ++ c.body.source.toList ++
        (Clause.texts "elseif" clauses ++ endingText alternative).toList := by
    rw [Clause.texts, String.append_assoc, String.toList_append, String.toList_append, hsource]
  rw [htext, hbetween, hts, hus]

/-- What stands behind the first body of a chain is an ending. -/
theorem exists_ending (alternative : Option Body) (clauses : List Clause) :
    ∃ e : Derivation .ending, e.Spells (Clause.texts "elseif" clauses ++ endingText alternative)
      (nesting alternative clauses) (tree alternative "elseif" clauses) := by
  induction clauses with
  | nil =>
    have hclose : Token.ofText closeTag.source = closeTag.tokens :=
      ofText_wording closeTag (by decide)
    cases alternative with
    | none => exact ⟨.close closeTag, trivial, hclose.symm, rfl, fun _ => rfl⟩
    | some b =>
      obtain ⟨d, hd⟩ := b.exists_derivation
      have htokens : Token.ofText (elseTag.source ++ b.source.toList ++ closeTag.source) = _ :=
        ofText_between (by decide) b rfl
      have htext : (Clause.texts "elseif" [] ++ endingText (some b)).toList =
          elseTag.source ++ b.source.toList ++ closeTag.source := by
        simp only [Clause.texts, endingText, Option.elim_some, String.empty_append,
          String.toList_append]
        rfl
      refine ⟨.otherwise elseTag d closeTag, hd.maximal, ?_, hd.depth_eq, fun p => hd.blocks_eq _⟩
      rw [htext, htokens, hclose, ← hd.tokens_eq]
      rfl
  | cons c clauses ih =>
    obtain ⟨e, he⟩ := ih
    obtain ⟨d, hd⟩ := c.body.exists_derivation
    have hsource : c.elseIfTag.source = (c.tag "elseif").toList := (c.toList_tag "elseif").symm
    refine ⟨.otherwiseIf c.condition c.ne_empty c.elseIfTag d e, ⟨hd.maximal, he.maximal⟩, ?_, ?_,
      fun p => ?_⟩
    · exact (ofText_texts (c.inert_words (by decide)) hsource hd.tokens_eq he.tokens_eq).symm
    · rw [Derivation.depth, nesting, hd.depth_eq, he.depth_eq]
    · simp only [Derivation.blocks, tree, hd.blocks_eq, he.blocks_eq, hd.source_eq, he.source_eq,
        hsource]

/-- **The tree of a chain.** -/
theorem Chain.parse_source (chain : Chain) (name : String) :
    parse chain.source name = .ok chain.blocks := by
  obtain ⟨clauses, alternative, hne, hnesting⟩ := chain
  obtain ⟨c, clauses, rfl⟩ := List.exists_cons_of_ne_nil hne
  obtain ⟨e, he⟩ := exists_ending alternative clauses
  obtain ⟨d, hd⟩ := c.body.exists_derivation
  have hsource : c.ifTag.source = (c.tag "#if").toList := (c.toList_tag "#if").symm
  have htokens := ofText_texts (c.inert_words (by decide)) hsource hd.tokens_eq he.tokens_eq
  refine parse_eq_ok_iff.2 ⟨.conditional c.condition c.ne_empty c.ifTag d e .nil,
    ⟨⟨hd.maximal, he.maximal, trivial⟩, ?_⟩, ?_, ?_⟩
  · rw [Chain.source, htokens, Derivation.tokens, Derivation.tokens, List.append_nil]
  · simpa [Derivation.depth, nesting, hd.depth_eq, he.depth_eq] using hnesting
  · simp only [Derivation.blocks, Chain.blocks, tree, hd.blocks_eq, he.blocks_eq, hd.source_eq,
      he.source_eq, hsource]

end Template
end FormLetter

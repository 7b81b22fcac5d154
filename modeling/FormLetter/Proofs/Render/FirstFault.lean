/-
# The block at fault

If a letter cannot be filled in, one block of its template is at fault, and the error is about that
block: it has the line where the tag of the block stands, and its message names the path that the
tag gives (`firstFault_of_letter`).  For a further condition of a chain that tag is an `elseif`.

The block at fault is the first one that could not be filled in.  All tasks before it have been
performed, and what is left to be done makes no difference: the letter comes to this block whatever
stands behind it and whatever items are left of the loops around it, and each letter that comes to
the block with the same page fails with the same error.
-/
import FormLetter.Proofs.Coverage.Within
import FormLetter.Proofs.Faults
import FormLetter.Proofs.Grammar.Parsing
import FormLetter.Proofs.Placement
import FormLetter.Proofs.Render.Tasks

namespace FormLetter

/-! ### The tag of a block -/

namespace Template

/-- The tokens are a tag that gives the path of the block, and with which the block starts. -/
inductive Block.OpenedBy : Block → List Token → Prop
  | field {path : String} {span : Span} (tag : Wording (.path path)) :
    OpenedBy (.field path span) tag.tokens
  | markdown {contents : List Char} {span : Span} :
    OpenedBy (.markdown (String.ofList (Text.trim contents)) span) (Fence.markdown.tag contents)
  | conditional {condition : String} {consequence alternative : List Block} {span : Span}
      (tag : Wording (.directive "if" condition)) :
    OpenedBy (.conditional condition consequence alternative span) tag.tokens
  | otherwiseIf {condition : String} {consequence alternative : List Block} {span : Span}
      (tag : Wording (.otherwiseIf condition)) :
    OpenedBy (.conditional condition consequence alternative span) tag.tokens
  | loop {source : String} {body : List Block} {span : Span}
      (tag : Wording (.directive "each" source)) :
    OpenedBy (.loop source body span) tag.tokens

lemma Derivation.IsItem.exists_openedBy {m : Part} {e : Derivation m} {q : Position} {b : Block}
    {path : String} (h : e.IsItem) (hb : e.blocks q = [b]) (hpath : b.path? = some path) :
    ∃ tag behind, e.tokens = tag ++ behind ∧ b.OpenedBy tag := by
  cases h with
  | text run hne hrun =>
    obtain rfl := List.singleton_inj.1 hb.symm
    cases hpath
  | field path hne tag =>
    obtain rfl := List.singleton_inj.1 hb.symm
    exact ⟨_, _, rfl, .field tag⟩
  | markdown contents hne =>
    obtain rfl := List.singleton_inj.1 hb.symm
    exact ⟨_, _, rfl, .markdown⟩
  | conditional condition hne tag consequence ending =>
    obtain rfl := List.singleton_inj.1 hb.symm
    refine ⟨_, consequence.tokens ++ ending.tokens, ?_, .conditional tag⟩
    simp only [tokens, List.append_assoc, List.append_nil]
  | loop source hne tag body closing =>
    obtain rfl := List.singleton_inj.1 hb.symm
    refine ⟨_, body.tokens ++ closing.tokens, ?_, .loop tag⟩
    simp only [tokens, List.append_assoc, List.append_nil]
  | otherwiseIf condition hne tag consequence ending =>
    obtain rfl := List.singleton_inj.1 hb.symm
    exact ⟨_, _, List.append_assoc _ _ _, .otherwiseIf tag⟩

/-- The tag of a block stands where the block starts. -/
lemma exists_openedBy_of_parse {source name path : String} {bs row : List Block} {b : Block}
    (h : parse source name = .ok bs) (hrow : Block.Row bs row) (hb : b ∈ row)
    (hpath : b.path? = some path) :
    ∃ read tag unread, Token.ofText source.toList = read ++ tag ++ unread ∧ b.OpenedBy tag ∧
      b.span.start = Position.start.after (read.flatMap Token.text) := by
  obtain ⟨d, hd, -, rfl⟩ := parse_eq_ok_iff.1 h
  obtain ⟨m, e, q, hitem, hwithin, hblock⟩ := Derivation.hasItem_of_row hrow hb
  obtain ⟨tag, behind, htokens, hopened⟩ := hitem.exists_openedBy hblock hpath
  obtain ⟨before, after, hbefore, rfl⟩ := hwithin.tokens_eq
  refine ⟨before, tag, behind ++ after, ?_, hopened, by rw [hitem.span_eq hblock]⟩
  rw [← hd.tokens_eq, hbefore, htokens]
  simp only [List.append_assoc]

end Template

namespace Render

open Template (Block Position Token)

/-! ### Tasks come from the tree -/

/-- What is to be filled in is part of the tree. -/
def Task.IsOf (tree : List Block) : Task → Prop
  | fill b => ∃ row, Block.Row tree row ∧ b ∈ row
  | enter body _ => Block.Row tree body
  | leave => True

section

variable {setting : Setting} {tree : List Block} {s t : Stage}

lemma isOf_fill {row : List Block} (h : Block.Row tree row) :
    ∀ task ∈ row.map Task.fill, task.IsOf tree := by
  intro task htask
  obtain ⟨b, hb, rfl⟩ := List.mem_map.1 htask
  exact ⟨row, h, hb⟩

lemma Step.isOf (h : Step setting s t) (hs : ∀ task ∈ s.todo, task.IsOf tree) :
    ∀ task ∈ t.todo, task.IsOf tree := by
  cases h with
  | text | field | markdown | leave => exact (List.forall_mem_cons.1 hs).2
  | consequence =>
    obtain ⟨⟨row, hrow, hb⟩, hlater⟩ := List.forall_mem_cons.1 hs
    exact List.forall_mem_append.2 ⟨isOf_fill (.body hrow hb (.consequence _ _ _ _)), hlater⟩
  | alternative =>
    obtain ⟨⟨row, hrow, hb⟩, hlater⟩ := List.forall_mem_cons.1 hs
    exact List.forall_mem_append.2 ⟨isOf_fill (.body hrow hb (.alternative _ _ _ _)), hlater⟩
  | loop =>
    obtain ⟨⟨row, hrow, hb⟩, hlater⟩ := List.forall_mem_cons.1 hs
    refine List.forall_mem_append.2 ⟨fun task htask => ?_, hlater⟩
    obtain ⟨item, -, rfl⟩ := List.mem_map.1 htask
    exact .body hrow hb (.loop _ _ _)
  | enter =>
    obtain ⟨hrow, hlater⟩ := List.forall_mem_cons.1 hs
    exact List.forall_mem_append.2
      ⟨isOf_fill hrow, List.forall_mem_cons.2 ⟨trivial, hlater⟩⟩

lemma Reaches.isOf (h : Reaches setting s t) (hs : ∀ task ∈ s.todo, task.IsOf tree) :
    ∀ task ∈ t.todo, task.IsOf tree := by
  induction h with
  | refl => exact hs
  | tail _ hstep ih => exact hstep.isOf ih

/-- The blocks that are come to from a row of blocks are in that row or inside its blocks. -/
lemma Reaches.exists_row {row : List Block} {b : Block} {later : List Task} {page page' : Page}
    (h : Reaches setting ⟨row.map .fill, page⟩ ⟨.fill b :: later, page'⟩) :
    ∃ inner, Block.Row row inner ∧ b ∈ inner :=
  h.isOf (isOf_fill .root) _ List.mem_cons_self

end

/-! ### The first fault -/

/-- The message names the path of the block. -/
lemma Unusable.exists_path {setting : Setting} {page : Page} {b : Block} {cause : Cause}
    (h : Unusable setting page b cause) :
    ∃ path before behind, b.path? = some path ∧
      cause.detail = some (before ++ "`" ++ path ++ "`" ++ behind) := by
  have hparameter : "parameter `" = "parameter " ++ "`" := rfl
  have hcondition : "condition `" = "condition " ++ "`" := rfl
  have hmissing : "` is missing" = "`" ++ " is missing" := rfl
  have hkind : "` is a " = "`" ++ " is a " := rfl
  cases h with
  | missing hpath hfind =>
    refine ⟨_, "parameter ", " is missing", hpath, ?_⟩
    simp only [Cause.detail, hparameter, hmissing, String.append_assoc]
  | @markdown path span v hv htext =>
    refine ⟨path, "parameter ", " is a " ++ v.kind.word ++ ", markdown needs a string", rfl, ?_⟩
    simp only [Cause.detail, hparameter, hkind, String.append_assoc]
  | @condition path _ _ span v hv htruth =>
    refine ⟨path, "condition ", " is a " ++ v.kind.word ++ " which has no truth value", rfl, ?_⟩
    simp only [Cause.detail, hcondition, hkind, String.append_assoc]
  | @source path _ span v hv hitems =>
    refine ⟨path, "parameter ", " is a " ++ v.kind.word ++ ", expected a sequence", rfl, ?_⟩
    simp only [Cause.detail, hparameter, hkind, String.append_assoc]

/-- The letter with the blocks `bs`, which are read from the source, is stopped by the block `b`,
and the error is about that block. -/
structure FirstFault (source : String) (setting : Setting) (bs : List Block) (e : Error)
    (b : Block) (page : Page) (later : List Task) (cause : Cause) : Prop where
  /-- The block is one of the template, at whatever depth. -/
  exists_row : ∃ row, Block.Row bs row ∧ b ∈ row
  /-- All that comes before the block is done, and `later` is left to be done behind it. -/
  reaches : Reaches setting (.start bs) ⟨.fill b :: later, page⟩
  /-- The block cannot use the value at its own path. -/
  unusable : Unusable setting page b cause
  /-- The error has the line where the block starts. -/
  error_eq : e = { cause, location := some ⟨setting.name, b.span.start.line⟩ }
  /-- The message names the path of the block. -/
  exists_path : ∃ path before behind, b.path? = some path ∧
    e.detail = some (before ++ "`" ++ path ++ "`" ++ behind)
  /-- The line is the one where the tag stands that gives this path. -/
  exists_tag : ∃ read tag unread, Token.ofText source.toList = read ++ tag ++ unread ∧
    b.OpenedBy tag ∧ b.span.start = Position.start.after (read.flatMap Token.text) ∧
    e.line = 1 + (read.flatMap Token.text).count '\n'
  /-- Of the blocks that the letter comes to, no other one stops it. -/
  eq_of_unusable : ∀ b' page' later' cause',
    Reaches setting (.start bs) ⟨.fill b' :: later', page'⟩ → Unusable setting page' b' cause' →
      b' = b ∧ page' = page ∧ later' = later ∧ cause' = cause
  /-- Each of these blocks is filled in before, or it fails since the block at fault is the same or
  is inside it. -/
  filled_in : ∀ b' later' page', Reaches setting (.start bs) ⟨.fill b' :: later', page'⟩ →
    (∃ page'', block setting b' page' = (.ok (), page'') ∧
      Reaches setting ⟨later', page''⟩ ⟨.fill b :: later, page⟩) ∨
    (∃ e', (block setting b' page').1 = .error e') ∧ ∃ row, Block.Row [b'] row ∧ b ∈ row
  /-- While tasks are performed, the letter comes to the block whatever is to be done behind these
  tasks, unless they are all performed before. -/
  unaffected : ∀ first later' page', Reaches setting (.start bs) ⟨first ++ later', page'⟩ →
    (∃ page'', (∀ rest, Reaches setting ⟨first ++ rest, page'⟩ ⟨rest, page''⟩) ∧
      Reaches setting ⟨later', page''⟩ ⟨.fill b :: later, page⟩) ∨
    ∃ inner, later = inner ++ later' ∧
      ∀ rest, Reaches setting ⟨first ++ rest, page'⟩ ⟨.fill b :: (inner ++ rest), page⟩
  /-- Each letter that comes to the block fails with the error, whatever is left to be done. -/
  letter_eq : ∀ setting' bs' later', setting'.name = setting.name →
    Reaches setting' (.start bs') ⟨.fill b :: later', page⟩ → Unusable setting' page b cause →
      letter setting' bs' = .error e

/-- **The first fault.**  If a letter cannot be filled in, it needs a value that is missing or of
another kind, and the error is about the first block that cannot use the value at its own path. -/
theorem firstFault_of_letter {source name : String} {setting : Setting} {bs : List Block}
    {e : Error} (hparse : Template.parse source name = .ok bs)
    (hletter : letter setting bs = .error e) :
    (e.kind = .missingParameter ∨ e.kind = .conditionType) ∧
      ∃ b page later cause, FirstFault source setting bs e b page later cause := by
  obtain ⟨b, page, later, cause, hreaches, hunusable, rfl⟩ := letter_eq_error_iff.1 hletter
  have hkind := (comesFrom_letter hletter).kind_mem
  obtain ⟨row, hrow, hb⟩ := hreaches.exists_row
  obtain ⟨path, before, behind, hpath, hdetail⟩ := hunusable.exists_path
  obtain ⟨read, tag, unread, htokens, hopened, hstart⟩ :=
    Template.exists_openedBy_of_parse hparse hrow hb hpath
  refine ⟨by simpa [faultKinds] using hkind, b, page, later, cause, ?_⟩
  refine
    { exists_row := ⟨row, hrow, hb⟩
      reaches := hreaches
      unusable := hunusable
      error_eq := rfl
      exists_path := ⟨path, before, behind, hpath, hdetail⟩
      exists_tag := ⟨read, tag, unread, htokens, hopened, hstart, ?_⟩
      eq_of_unusable := fun _ _ _ _ h hunusable' => h.eq_of_unusable hreaches hunusable' hunusable
      filled_in := ?_
      unaffected := fun _ _ _ h => hreaches.unaffected hunusable h
      letter_eq := ?_ }
  · change b.span.start.line = _
    rw [hstart, Position.line_after]
    rfl
  · intro b' later' page' hreaches'
    rcases hreaches.filled_in hunusable hreaches' with hdone | ⟨e', inner, herror, -, hinside⟩
    · exact Or.inl hdone
    · have hfrom : Reaches setting ⟨[b'].map .fill, page'⟩ ⟨.fill b :: inner, page⟩ := hinside
      exact Or.inr ⟨⟨e', herror⟩, hfrom.exists_row⟩
  · intro setting' bs' later' hname hreaches' hunusable'
    refine letter_eq_error_iff.2 ⟨b, page, later', cause, hreaches', hunusable', ?_⟩
    rw [faultError, faultError, hname]

/-- The second row has no value for the `elseif`, which stands on the third line. -/
theorem firstFault_of_letter_elseif :
    let source :=
      "\x7b\x7b#each rows\x7d\x7d\n\x7b\x7b#if this.a\x7d\x7d\n{{elseif this.b}}{{/if}}{{/each}}"
    let bs : List Block :=
      [.loop "rows"
        [.text "\n" ⟨⟨1, 14, 14⟩, ⟨2, 0, 15⟩⟩,
          .conditional "this.a" [.text "\n" ⟨⟨2, 14, 29⟩, ⟨3, 0, 30⟩⟩]
            [.conditional "this.b" [] [] ⟨⟨3, 0, 30⟩, ⟨3, 24, 54⟩⟩] ⟨⟨2, 0, 15⟩, ⟨3, 24, 54⟩⟩]
        ⟨.start, ⟨3, 33, 63⟩⟩]
    let rows : Value := .seq [.map [("a", .bool true)], .map [("a", .bool false)]]
    let setting : Setting := ⟨.map [("rows", rows)], id, "letter"⟩
    let e : Error := { cause := .valueMissing "this.b", location := some ⟨"letter", 3⟩ }
    Template.parse source "letter" = .ok bs ∧ letter setting bs = .error e ∧
      (e.kind = .missingParameter ∨ e.kind = .conditionType) ∧
        ∃ b page later cause, FirstFault source setting bs e b page later cause := by
  intro source bs rows setting e
  have hparse : Template.parse source "letter" = .ok bs := by
    unfold source bs
    rfl
  have hletter : letter setting bs = .error e := rfl
  exact ⟨hparse, hletter, firstFault_of_letter hparse hletter⟩

end Render
end FormLetter

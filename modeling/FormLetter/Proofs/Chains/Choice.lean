/-
# The choice in a chain of conditions

The conditions of a chain are tried one after the other.  The first one that is not false settles the
letter: if it is true, the letter is that of its body, and if it has no truth value, there is no
letter.  What stands behind it is not looked at.  If all conditions are false, the letter is that of
the alternative (`compile_chain`).

A false condition leads on to what stands behind its body.  There the chain goes on as before, only
further down, so the proof is by induction on the clauses in front of the one that settles the
letter, and it keeps count of the lines above.
-/
import FormLetter.Proofs.Chains.Tree
import FormLetter.Proofs.Render.Paths

namespace FormLetter

namespace Render

open Template (Block Span Position)

variable {setting : Setting} {v : Value} {path : String}

/-! ### A letter of one block -/

section

variable {b : Block}

/-- A block that is filled in like some blocks has their letter. -/
lemma letter_singleton {bs : List Block}
    (h : block setting b .blank = blocks setting bs .blank) :
    letter setting [b] = letter setting bs := by
  have hfails : FailsWith (Error.ComesFrom setting.name faultKinds) (blocks setting bs .blank) :=
    failsWith_blocks bs .blank
  rw [letter, letter, blocks, h]
  generalize blocks setting bs .blank = o at hfails ⊢
  obtain ⟨e | _, page⟩ := o
  · exact congrArg Except.error ((hfails e rfl).located_eq _)
  · rfl

lemma letter_singleton_fail {cause : Cause} (h : block setting b .blank = fail cause .blank) :
    letter setting [b] =
      .error { cause, location := some ⟨setting.name, b.span.start.line⟩ } := by
  rw [letter, blocks, h]
  rfl

end

/-! ### A letter that depends on a condition -/

section

lemma resolve_blank (h : lookup setting.root path = some v) (hne : v ≠ .none) :
    Page.blank.resolve setting.root path = .ok v := resolve_eq_ok_iff.2 ⟨h, hne⟩

lemma resolve_blank_missing
    (h : lookup setting.root path = none ∨ lookup setting.root path = some .none) :
    Page.blank.resolve setting.root path = .error (.valueMissing path) := by
  have hfind : Page.blank.find? setting.root path = lookup setting.root path := rfl
  rw [Page.resolve, hfind]
  rcases h with h | h
  · rw [h]
  · rw [h]
    rfl

variable (consequence alternative : List Block) (span : Span)

/-- A condition that has a truth value chooses one of its bodies. -/
lemma letter_of_truth {truth : Bool} (h : lookup setting.root path = some v)
    (hv : v.truth? = some truth) :
    letter setting [.conditional path consequence alternative span] =
      letter setting (bif truth then consequence else alternative) := by
  have hne : v ≠ .none := by
    rintro rfl
    simp [Value.truth?] at hv
  refine letter_singleton ?_
  rw [block, resolve_blank h hne]
  cases truth <;> simp only [hv, cond_true, cond_false]

lemma letter_of_missing
    (h : lookup setting.root path = none ∨ lookup setting.root path = some .none) :
    letter setting [.conditional path consequence alternative span] =
      .error { cause := .valueMissing path, location := some ⟨setting.name, span.start.line⟩ } := by
  refine letter_singleton_fail ?_
  rw [block, resolve_blank_missing h]

lemma letter_of_number (h : lookup setting.root path = some v) (hv : v.kind = .number) :
    letter setting [.conditional path consequence alternative span] =
      .error { cause := .truthExpected path .number,
               location := some ⟨setting.name, span.start.line⟩ } := by
  have htruth : v.truth? = none := by cases v <;> simp_all [Value.kind, Value.truth?]
  have hne : v ≠ .none := by
    rintro rfl
    simp [Value.kind] at hv
  refine letter_singleton_fail ?_
  rw [block, resolve_blank h hne]
  simp only [htruth, hv]

end

/-- A value without a truth value is absent or a number. -/
lemma truth?_eq_none (h : v.truth? = none) : v = .none ∨ v.kind = .number := by
  cases v <;> simp_all [Value.truth?, Value.kind]

/-- The letter of blocks that start further down. -/
lemma letter_plus {q : Position} {above : Nat} (hq : q.line = above + 1) (bs : List Block) :
    letter setting (Block.relocateAll q.plus bs) =
      (letter setting bs).mapError (Error.relocate (· + above)) := by
  have hline : ∀ p, (q.plus p).line = p.line + above := by
    intro p
    rw [Position.line_plus (by omega), hq, Nat.add_sub_cancel]
  exact letter_relocate hline bs

end Render

namespace Template

open Render (Setting letter lookup)

variable {setting : Setting} {alternative : Option Body} {clauses : List Clause} {p : Position}
  {word : String} {above : Nat}

namespace Clause

/-- The condition of the clause is false in the root. -/
def IsFalse (root : Value) (c : Clause) : Prop :=
  ∃ v, lookup root c.condition = some v ∧ v.truth? = some false

/-- A letter in which the clause is the first one that is not false, with its tag below the given
number of lines. -/
structure Settles (setting : Setting) (c : Clause) (above : Nat)
    (outcome : Except Error String) : Prop where
  of_true : ∀ v, lookup setting.root c.condition = some v → v.truth? = some true →
    outcome = (letter setting c.body.blocks).mapError
      (Error.relocate (· + (above + c.condition.toList.count '\n')))
  of_missing : lookup setting.root c.condition = none ∨
      lookup setting.root c.condition = some .none →
    outcome = .error { cause := .valueMissing c.condition,
                       location := some ⟨setting.name, above + 1⟩ }
  of_number : ∀ v, lookup setting.root c.condition = some v → v.kind = .number →
    outcome = .error { cause := .truthExpected c.condition .number,
                       location := some ⟨setting.name, above + 1⟩ }

variable {c : Clause}

/-- The clause leaves nothing open: a condition that is not false is true, missing or a number. -/
lemma Settles.eq {outcome outcome' : Except Error String} (h : c.Settles setting above outcome)
    (h' : c.Settles setting above outcome') (hc : ¬ c.IsFalse setting.root) :
    outcome = outcome' := by
  cases hfound : lookup setting.root c.condition with
  | none => rw [h.of_missing (Or.inl hfound), h'.of_missing (Or.inl hfound)]
  | some v =>
    rcases htruth : v.truth? with _ | _ | _
    · rcases Render.truth?_eq_none htruth with rfl | hnumber
      · rw [h.of_missing (Or.inr hfound), h'.of_missing (Or.inr hfound)]
      · rw [h.of_number v hfound hnumber, h'.of_number v hfound hnumber]
    · exact absurd ⟨v, hfound, htruth⟩ hc
    · rw [h.of_true v hfound htruth, h'.of_true v hfound htruth]

lemma count_tag (hword : '\n' ∉ word.toList) :
    (c.tag word).toList.count '\n' = c.condition.toList.count '\n' := by
  rw [c.toList_tag, Fence.enclose, List.count_append, List.count_append, List.count_append,
    List.count_append, List.count_eq_zero_of_not_mem hword]
  simp [Fence.opening, Fence.closing]

end Clause

/-! ### The clauses of a chain -/

/-- A false condition leads on to what stands behind its body. -/
lemma letter_tree_of_isFalse {c : Clause} (hc : c.IsFalse setting.root) :
    letter setting (tree alternative word (c :: clauses) p) =
      letter setting (tree alternative "elseif" clauses
        ((p.after (c.tag word).toList).after c.body.source.toList)) := by
  obtain ⟨v, hfound, hfalse⟩ := hc
  exact Render.letter_of_truth _ _ _ hfound hfalse

/-- The first clause settles the letter. -/
lemma settles_tree_cons (hword : '\n' ∉ word.toList) (hp : p.line = above + 1) (c : Clause) :
    c.Settles setting above (letter setting (tree alternative word (c :: clauses) p)) where
  of_true := by
    intro v hfound htrue
    have hbody : (p.after (c.tag word).toList).line =
        above + c.condition.toList.count '\n' + 1 := by
      rw [Position.line_after, Clause.count_tag hword, hp, Nat.add_right_comm]
    exact (Render.letter_of_truth _ _ _ hfound htrue).trans (Render.letter_plus hbody _)
  of_missing := by
    intro hmissing
    rw [← hp]
    exact Render.letter_of_missing _ _ _ hmissing
  of_number := by
    intro v hfound hnumber
    rw [← hp]
    exact Render.letter_of_number _ _ _ hfound hnumber

/-- The line behind a clause. -/
lemma line_behind_clause (word : String) (c : Clause) (hp : p.line = above + 1) :
    ((p.after (c.tag word).toList).after c.body.source.toList).line =
      above + (c.tag word ++ c.body.source).toList.count '\n' + 1 := by
  rw [← Position.after_append, ← String.toList_append, Position.line_after, hp, Nat.add_right_comm]

lemma count_texts_cons (word : String) (c : Clause) (clauses : List Clause) :
    (Clause.texts word (c :: clauses)).toList.count '\n' =
      (c.tag word ++ c.body.source).toList.count '\n' +
        (Clause.texts "elseif" clauses).toList.count '\n' := by
  rw [Clause.texts, String.toList_append, List.count_append]

/-- A clause settles the letter if all clauses in front of it are false. -/
theorem settles_tree {before after : List Clause} {c : Clause} (hword : '\n' ∉ word.toList)
    (hp : p.line = above + 1) (hbefore : ∀ d ∈ before, d.IsFalse setting.root) :
    c.Settles setting (above + (Clause.texts word before).toList.count '\n')
      (letter setting (tree alternative word (before ++ c :: after) p)) := by
  induction before generalizing word p above with
  | nil => exact settles_tree_cons hword hp c
  | cons d before ih =>
    have hfalse : d.IsFalse setting.root := hbefore d List.mem_cons_self
    have hrest : ∀ d ∈ before, d.IsFalse setting.root := fun e he =>
      hbefore e (List.mem_cons_of_mem d he)
    have hword' : '\n' ∉ "elseif".toList := by decide
    rw [List.cons_append, letter_tree_of_isFalse hfalse, count_texts_cons, ← Nat.add_assoc]
    exact ih hword' (line_behind_clause word d hp) hrest

/-- If all clauses are false, the letter is that of the alternative. -/
theorem letter_tree_of_forall_isFalse (hp : p.line = above + 1)
    (hclauses : ∀ d ∈ clauses, d.IsFalse setting.root) :
    letter setting (tree alternative word clauses p) =
      (letter setting (alternative.elim [] Body.blocks)).mapError
        (Error.relocate (· + (above + (Clause.texts word clauses).toList.count '\n'))) := by
  induction clauses generalizing word p above with
  | nil =>
    cases alternative with
    | none => rfl
    | some b =>
      have hbody : (p.after "\x7b\x7belse\x7d\x7d".toList).line = above + 1 := by
        rw [Position.line_after, hp]
        rfl
      exact Render.letter_plus hbody b.blocks
  | cons d clauses ih =>
    have hfalse : d.IsFalse setting.root := hclauses d List.mem_cons_self
    have hrest : ∀ d ∈ clauses, d.IsFalse setting.root := fun e he =>
      hclauses e (List.mem_cons_of_mem d he)
    rw [letter_tree_of_isFalse hfalse, ih (line_behind_clause word d hp) hrest, count_texts_cons,
      ← Nat.add_assoc]

/-- **Choice.**  A chain of conditions can be read.  The first clause whose condition is not false
settles its letter, wherever the chain goes on behind it: the letter is that of the body if the
condition is true, and an error at the line of the tag if there is no value or a number.  If all
conditions are false, the letter is that of the alternative, or empty if there is none. -/
theorem compile_chain (chain : Chain) (setting : Setting) :
    (∀ name, parse chain.source name = .ok chain.blocks) ∧
    (∀ before c after, chain.clauses = before ++ c :: after →
      (∀ d ∈ before, d.IsFalse setting.root) →
      c.Settles setting ((Clause.texts "#if" before).toList.count '\n')
        (letter setting chain.blocks)) ∧
    ((∀ d ∈ chain.clauses, d.IsFalse setting.root) →
      letter setting chain.blocks =
        (letter setting (chain.alternative.elim [] Body.blocks)).mapError
          (Error.relocate (· + (Clause.texts "#if" chain.clauses).toList.count '\n'))) ∧
    ∀ (other : Chain) (before : List Clause) (c : Clause) (after after' : List Clause),
      chain.clauses = before ++ c :: after → other.clauses = before ++ c :: after' →
      (∀ d ∈ before, d.IsFalse setting.root) → ¬ c.IsFalse setting.root →
      letter setting chain.blocks = letter setting other.blocks := by
  have hsettles : ∀ (chain : Chain) (before : List Clause) (c : Clause) (after : List Clause),
      chain.clauses = before ++ c :: after → (∀ d ∈ before, d.IsFalse setting.root) →
      c.Settles setting ((Clause.texts "#if" before).toList.count '\n')
        (letter setting chain.blocks) := by
    intro chain before c after hclauses hbefore
    have hsettles : c.Settles setting (0 + (Clause.texts "#if" before).toList.count '\n')
        (letter setting (tree chain.alternative "#if" (before ++ c :: after) .start)) :=
      settles_tree (by decide) rfl hbefore
    rwa [Nat.zero_add, ← hclauses] at hsettles
  refine ⟨chain.parse_source, hsettles chain, fun hall => ?_, ?_⟩
  · rw [Chain.blocks, letter_tree_of_forall_isFalse rfl hall, Nat.zero_add]
  · intro other before c after after' hchain hother hbefore hc
    exact (hsettles chain before c after hchain hbefore).eq
      (hsettles other before c after' hother hbefore) hc

/-- Two conditions, a body that is a template with a condition of its own, and an alternative.  The
second condition stands in the second line.  If it is a number, a further clause in the place of the
alternative makes no difference. -/
theorem compile_chain_nested :
    let first : Clause :=
      { condition := "a", ne_empty := by decide, trimmed := Text.trimmed_of_ink (by decide),
        unbraced := by simp,
        body := ⟨"x\n", [.text "x\n" ⟨.start, ⟨2, 0, 2⟩⟩], rfl, by decide, by decide⟩ }
    let second : Clause :=
      { condition := "b.c", ne_empty := by decide, trimmed := Text.trimmed_of_ink (by decide),
        unbraced := by simp,
        body := ⟨"\x7b\x7b#if d\x7d\x7d\x7b\x7bname\x7d\x7d\x7b\x7b/if\x7d\x7d",
          [.conditional "d" [.field "name" ⟨⟨1, 9, 9⟩, ⟨1, 17, 17⟩⟩] [] ⟨.start, ⟨1, 24, 24⟩⟩], rfl,
          by decide, by decide⟩ }
    let chain : Chain :=
      ⟨[first, second], some ⟨"z", [.text "z" ⟨.start, ⟨1, 1, 1⟩⟩], rfl, by decide, by decide⟩,
        by simp, by decide⟩
    let longer : Chain := ⟨[first, second, first], none, by simp, by decide⟩
    let setting (entries : List (String × Value)) : Setting := ⟨.map entries, id, "letter"⟩
    chain.source = "\x7b\x7b#if a\x7d\x7dx\n\x7b\x7belseif b.c\x7d\x7d" ++
      "\x7b\x7b#if d\x7d\x7d\x7b\x7bname\x7d\x7d\x7b\x7b/if\x7d\x7d" ++
      "\x7b\x7belse\x7d\x7dz\x7b\x7b/if\x7d\x7d" ∧
    parse chain.source "letter" = .ok chain.blocks ∧
    letter (setting [("a", .string ""), ("b", .map [("c", .seq [.none])]), ("d", .bool true)])
        chain.blocks =
      .error { cause := .valueMissing "name", location := some ⟨"letter", 2⟩ } ∧
    letter (setting [("a", .bool false), ("b.c", .int 1)]) chain.blocks =
      .error { cause := .truthExpected "b.c" .number, location := some ⟨"letter", 2⟩ } ∧
    letter (setting [("a", .bool false), ("b.c", .int 1)]) chain.blocks =
      letter (setting [("a", .bool false), ("b.c", .int 1)]) longer.blocks ∧
    letter (setting [("a", .seq []), ("b", .map [("c", .string "")])]) chain.blocks = .ok "z" := by
  intro first second chain longer setting
  have hfirst : ∀ (root v : Value), lookup root "a" = some v → v.truth? = some false →
      ∀ d ∈ [first], d.IsFalse root := by
    intro root v hfound hfalse d hd
    obtain rfl := List.mem_singleton.1 hd
    exact ⟨v, hfound, hfalse⟩
  have hsettles : ∀ (entries : List (String × Value)) (v : Value),
      lookup (.map entries) "a" = some v → v.truth? = some false →
      second.Settles (setting entries) 1 (letter (setting entries) chain.blocks) := by
    intro entries v hfound hfalse
    have hcount : (Clause.texts "#if" [first]).toList.count '\n' = 1 := by
      simp [Clause.texts, Clause.tag, first]
    rw [← hcount]
    exact (compile_chain chain (setting entries)).2.1 [first] second [] rfl
      (hfirst _ v hfound hfalse)
  have hnumber : lookup (.map [("a", .bool false), ("b.c", .int 1)]) "b.c" = some (.int 1) := rfl
  refine ⟨by decide, (compile_chain chain (setting [])).1 "letter", ?_, ?_, ?_, ?_⟩
  · have htrue : lookup (.map [("a", .string ""), ("b", .map [("c", .seq [.none])]),
        ("d", .bool true)]) "b.c" = some (.seq [.none]) := rfl
    have hcount : second.condition.toList.count '\n' = 0 := by simp [second]
    rw [(hsettles _ (.string "") rfl rfl).of_true _ htrue rfl, hcount]
    rfl
  · exact (hsettles _ (.bool false) rfl rfl).of_number _ hnumber rfl
  · have hsecond : ¬ second.IsFalse (.map [("a", .bool false), ("b.c", .int 1)]) := by
      rintro ⟨v, hfound, hfalse⟩
      obtain rfl := Option.some.inj (hnumber.symm.trans hfound)
      simp [Value.truth?] at hfalse
    exact (compile_chain chain (setting [("a", .bool false), ("b.c", .int 1)])).2.2.2 longer
      [first] second [] [first] rfl rfl (hfirst _ (.bool false) rfl rfl) hsecond
  · have hsecond : lookup (.map [("a", .seq []), ("b", .map [("c", .string "")])]) "b.c" =
        some (.string "") := rfl
    refine (compile_chain chain
      (setting [("a", .seq []), ("b", .map [("c", .string "")])])).2.2.1 fun d hd => ?_
    rcases List.mem_pair.1 hd with rfl | rfl
    · exact hfirst _ (.seq []) rfl rfl first List.mem_cons_self
    · exact ⟨.string "", hsecond, rfl⟩

end Template
end FormLetter

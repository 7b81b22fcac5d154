/-
# Two templates in a row

The derivations of two templates are put together into one of the template that is made of both.
Nothing changes but the text at the seam: where the first template ends with a run of text and the
second one starts with one, the two runs become one.  For the letter this makes no difference, since
the text of two blocks is written one behind the other.

The tokens of the two templates must stay what they are when the templates stand side by side, so no
delimiter may form at the seam.
-/
import FormLetter.Proofs.Grammar.Parsing
import FormLetter.Proofs.Render.Writing

namespace FormLetter
namespace Template
namespace Derivation

/-- A body with a run of text in front.  If the body starts with text it is one run with that. -/
def prependRun (run : List Token) (hne : run ≠ []) (hrun : ∀ t ∈ run, t.isText = true) :
    Derivation .body → Derivation .body
  | .text run' _ hrun' rest =>
    .text (run ++ run') (by simp [hne]) (fun t ht => (List.mem_append.1 ht).elim (hrun t) (hrun' t))
      rest
  | d => .text run hne hrun d

/-- The items of one body and then those of another one. -/
def append : {n : Part} → Derivation n → Derivation .body → Derivation n
  | _, .nil, e => e
  | _, .text run hne hrun rest, e => (rest.append e).prependRun run hne hrun
  | _, .field path hne tag rest, e => .field path hne tag (rest.append e)
  | _, .markdown contents hne rest, e => .markdown contents hne (rest.append e)
  | _, .conditional condition hne tag consequence ending rest, e =>
    .conditional condition hne tag consequence ending (rest.append e)
  | _, .loop source hne tag body closing rest, e =>
    .loop source hne tag body closing (rest.append e)
  | _, .close tag, _ => .close tag
  | _, .otherwise tag alternative closing, _ => .otherwise tag alternative closing
  | _, .otherwiseIf condition hne tag consequence ending, _ =>
    .otherwiseIf condition hne tag consequence ending

section

variable {run : List Token} (hne : run ≠ []) (hrun : ∀ t ∈ run, t.isText = true)
  (d e : Derivation .body)

@[simp] lemma tokens_prependRun : (d.prependRun run hne hrun).tokens = run ++ d.tokens := by
  cases d <;> simp [prependRun, tokens]

@[simp] lemma depth_prependRun : (d.prependRun run hne hrun).depth = d.depth := by
  cases d <;> rfl

lemma maximal_prependRun (hd : d.Maximal) : (d.prependRun run hne hrun).Maximal := by
  -- either the body starts with text, of a run that ends where it did, or with a tag
  cases d with
  | nil => exact ⟨endsText_nil, trivial⟩
  | text run' hne' hrun' rest => exact hd
  | field path hne' tag rest => exact ⟨endsText_wording _ _, hd⟩
  | markdown contents hne' rest => exact ⟨endsText_tag _ _ _, hd⟩
  | conditional condition hne' tag consequence ending rest =>
    refine ⟨?_, hd⟩
    simp only [tokens, List.append_assoc]
    exact endsText_wording _ _
  | loop source hne' tag body closing rest =>
    refine ⟨?_, hd⟩
    simp only [tokens, List.append_assoc]
    exact endsText_wording _ _

@[simp] lemma tokens_append : (d.append e).tokens = d.tokens ++ e.tokens := by
  induction d using body_induction <;> simp_all [append, tokens]

@[simp] lemma depth_append : (d.append e).depth = max d.depth e.depth := by
  induction d using body_induction <;> simp_all [append, depth, max_assoc]

lemma maximal_append (hd : d.Maximal) (he : e.Maximal) : (d.append e).Maximal := by
  induction d using body_induction with
  | nil => exact he
  | text run hne hrun rest ih => exact maximal_prependRun hne hrun _ (ih hd.2)
  | field path hne tag rest ih => exact ih hd
  | markdown contents hne rest ih => exact ih hd
  | conditional condition hne tag consequence ending rest ih => exact ⟨hd.1, hd.2.1, ih hd.2.2⟩
  | loop source hne tag body closing rest ih => exact ⟨hd.1, ih hd.2⟩

end

/-! ### The letter of two templates in a row -/

variable {setting : Render.Setting} (d e : Derivation .body) (p : Position) (page : Render.Page)

/-- One run of text is written like two. -/
lemma render_prependRun {run : List Token} (hne : run ≠ []) (hrun : ∀ t ∈ run, t.isText = true) :
    Render.blocks setting ((d.prependRun run hne hrun).blocks p) page =
      Render.blocks setting (d.blocks (p.after (run.flatMap Token.text)))
        (page.write (String.ofList (run.flatMap Token.text))) := by
  cases d <;> simp [prependRun, blocks, Render.blocks, Render.block, Render.Page.write,
    Position.after_append, String.append_assoc]

/-- The blocks of two bodies in a row are filled in like those of the one and then those of the
other. -/
theorem render_append :
    Render.blocks setting ((d.append e).blocks p) page =
      Render.blocks setting (d.blocks p ++ e.blocks (p.after d.source)) page := by
  induction d using body_induction generalizing p page with
  | nil => rfl
  | text run hne hrun rest ih =>
    -- if nothing is left of the first body, the run may have grown by text of the second one
    rw [append, render_prependRun, ih]
    simp [blocks, Render.blocks, Render.block, Position.after_append]
  | field path hne tag rest ih =>
    simp only [append, blocks, List.cons_append, Render.blocks, ih, source_field,
      Position.after_append]
  | markdown contents hne rest ih =>
    simp only [append, blocks, List.cons_append, Render.blocks, ih, source_markdown,
      Position.after_append]
  | conditional condition hne tag consequence ending rest ih =>
    simp only [append, blocks, List.cons_append, Render.blocks, ih, source_conditional,
      Position.after_append]
  | loop source hne tag body closing rest ih =>
    simp only [append, blocks, List.cons_append, Render.blocks, ih, source_loop,
      Position.after_append]

variable {d e}

lemma derives_append {s t : String} (hd : d.Derives s) (he : e.Derives t)
    (hseam : ∀ c ∈ s.toList.getLast?, ∀ c' ∈ t.toList.head?, ¬ Token.Joins c c') :
    (d.append e).Derives (s ++ t) := by
  refine ⟨maximal_append d e hd.maximal he.maximal, ?_⟩
  rw [tokens_append, String.toList_append, Token.ofText_append hseam, hd.tokens_eq, he.tokens_eq]

/-- The letter of two templates in a row. -/
lemma letter_append (d e : Derivation .body) :
    Render.letter setting ((d.append e).blocks .start) =
      match Render.letter setting (d.blocks .start) with
      | .ok first => ((Render.letter setting (e.blocks .start)).map (first ++ ·)).mapError
          (Error.relocate (· + d.source.count '\n'))
      | .error e => .error e := by
  have hline : (Position.start.after d.source).line - 1 = d.source.count '\n' := by
    rw [Position.line_after]
    exact Nat.add_sub_cancel_left ..
  have hmoved := e.blocks_relocate (Position.moves_plus (Position.start.after d.source))
  rw [Render.letter, render_append, ← hmoved, ← hline]
  exact Render.letter_append _ _ (Position.line_le_after .start _)

end Derivation

/-- **Concatenation.**  If two templates can be read and no delimiter forms where they meet, then
the template that is made of both can be read, and its letter is the letters of the two, one behind
the other.  If the first letter fails, the whole letter fails with the same error; if only the
second one fails, the whole letter fails with its error, further down by the lines of the first
template. -/
theorem compile_append {s t : String} {as bs : List Block} (hs : compile s = .ok as)
    (ht : compile t = .ok bs)
    (hseam : ∀ c ∈ s.toList.getLast?, ∀ c' ∈ t.toList.head?,
      ¬ (c = '{' ∧ c' = '{') ∧ ¬ (c = '}' ∧ c' = '}')) :
    ∃ cs, compile (s ++ t) = .ok cs ∧ ∀ setting : Render.Setting,
      (∀ x y, Render.letter setting as = .ok x → Render.letter setting bs = .ok y →
        Render.letter setting cs = .ok (x ++ y)) ∧
      (∀ e, Render.letter setting as = .error e → Render.letter setting cs = .error e) ∧
      ∀ x e, Render.letter setting as = .ok x → Render.letter setting bs = .error e →
        ∃ l, e.location = some l ∧
          Render.letter setting cs =
            .error { e with location := some ⟨l.name, l.line + s.toList.count '\n'⟩ } := by
  obtain ⟨d, hd, hdepth, rfl⟩ := parse_eq_ok_iff.1 hs
  obtain ⟨e, he, hdepth', rfl⟩ := parse_eq_ok_iff.1 ht
  have hjoins : ∀ c ∈ s.toList.getLast?, ∀ c' ∈ t.toList.head?, ¬ Token.Joins c c' := by
    rintro c hc c' hc' ⟨rfl, hbrace | hbrace⟩
    · exact (hseam c hc c hc').1 ⟨hbrace, hbrace⟩
    · exact (hseam c hc c hc').2 ⟨hbrace, hbrace⟩
  have hparse : compile (s ++ t) = .ok ((d.append e).blocks .start) := by
    refine parse_eq_ok_iff.2 ⟨d.append e, Derivation.derives_append hd he hjoins, ?_, rfl⟩
    rw [Derivation.depth_append]
    exact max_le hdepth hdepth'
  refine ⟨_, hparse, fun setting => ⟨?_, ?_, ?_⟩⟩
  · intro x y hx hy
    rw [Derivation.letter_append, hx, hy]
    rfl
  · intro error herror
    rw [Derivation.letter_append, herror]
  · intro x error hx herror
    obtain ⟨l, hl⟩ := Render.exists_location herror
    refine ⟨l, hl, ?_⟩
    rw [Derivation.letter_append, hx, herror, hd.source_eq]
    simp [Except.map, Except.mapError, Error.relocate, hl]

/-- The second template has a path that leads nowhere.  It stands in the second line of the whole,
behind text that is one run with the end of the first template. -/
theorem compile_append_missing_name :
    ∃ cs, compile ("Dear \x7b\n" ++ "you, {{ name }}") = .ok cs ∧
      Render.letter ⟨.map [], id, "letter"⟩ cs =
        .error { cause := .valueMissing "name", location := some ⟨"letter", 2⟩ } := by
  have hs : compile "Dear \x7b\n" = .ok [.text "Dear \x7b\n" ⟨.start, ⟨2, 0, 7⟩⟩] := rfl
  have ht : compile "you, {{ name }}" =
      .ok [.text "you, " ⟨.start, ⟨1, 5, 5⟩⟩, .field "name" ⟨⟨1, 5, 5⟩, ⟨1, 15, 15⟩⟩] := rfl
  obtain ⟨cs, hcs, hletter⟩ := compile_append hs ht (by
    rintro c hc c' hc'
    obtain rfl : '\n' = c := Option.some.inj hc
    simp)
  obtain ⟨l, hl, herror⟩ := (hletter ⟨.map [], id, "letter"⟩).2.2 _ _ rfl rfl
  obtain rfl := Option.some.inj hl
  exact ⟨cs, hcs, herror⟩

end Template
end FormLetter

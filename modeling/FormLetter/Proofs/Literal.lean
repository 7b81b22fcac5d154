/-
# Templates that are nothing but text

A template without two opening braces side by side has no tag: all its tokens are text, the closing
delimiters among them, and they make up one run (`parse_of_unopened`).  Conversely, a tree of nothing
but text is derived from tokens of text only (`isText_of_isText_blocks`), and there are no two opening
braces side by side in the text of such tokens.  So these templates, and no others, are literal: they
are filled in as they stand, whatever the data (`literal_iff`).
-/
import FormLetter.Letter
import FormLetter.Proofs.Coverage.Spans

namespace FormLetter
namespace Template

/-- The tree of a template that is nothing but text. -/
def literalTree (source : String) : List Block :=
  if source = "" then [] else [.text source ⟨.start, Position.start.after source.toList⟩]

/-! ### Tokens of text -/

/-- An opening delimiter starts with two braces. -/
lemma prefix_opening (fence : Fence) : ['{', '{'] <+: fence.opening := by
  cases fence with
  | plain => exact List.prefix_rfl
  | markdown => exact ⟨['{'], rfl⟩

/-- Without two opening braces side by side there are only tokens of text. -/
lemma isText_of_unopened {cs : List Char} (h : ¬ ['{', '{'] <:+: cs) :
    ∀ t ∈ Token.ofText cs, t.isText = true := by
  intro t ht
  cases t with
  | character c => rfl
  | closing fence => rfl
  | opening fence =>
    obtain ⟨us, vs, htokens⟩ := List.append_of_mem ht
    have htext := Token.ofText_text cs
    rw [htokens, List.flatMap_append, List.flatMap_cons, ← List.append_assoc] at htext
    refine absurd ?_ h
    rw [← htext]
    exact (prefix_opening fence).isInfix.trans (List.infix_append _ fence.opening _)

/-- Blocks that are all text are derived from tokens that are all text. -/
lemma Derivation.isText_of_isText_blocks (d : Derivation .body) {p : Position}
    (h : ∀ b ∈ d.blocks p, b.isText = true) : ∀ t ∈ d.tokens, t.isText = true := by
  induction d using body_induction generalizing p with
  | nil => simp [tokens]
  | text run hne hrun rest ih =>
    obtain ⟨-, hrest⟩ := List.forall_mem_cons.1 h
    exact List.forall_mem_append.2 ⟨hrun, ih hrest⟩
  | field path hne tag rest => cases h _ List.mem_cons_self
  | markdown contents hne rest => cases h _ List.mem_cons_self
  | conditional condition hne tag consequence ending rest => cases h _ List.mem_cons_self
  | loop name hne tag body closing rest => cases h _ List.mem_cons_self

/-! ### Reading and filling in -/

lemma unopened_of_isText {source name : String} {blocks : List Block}
    (h : parse source name = .ok blocks) (htext : ∀ b ∈ blocks, b.isText = true) :
    ¬ ['{', '{'] <:+: source.toList := by
  obtain ⟨d, hd, -, rfl⟩ := parse_eq_ok_iff.1 h
  rw [← hd.source_eq]
  exact not_infix_text (d.isText_of_isText_blocks htext) hd.isChain

/-- The whole of the template is one run of text, unless it is empty. -/
theorem parse_of_unopened {source : String} (h : ¬ ['{', '{'] <:+: source.toList) (name : String) :
    parse source name = .ok (literalTree source) := by
  refine parse_eq_ok_iff.2 ?_
  by_cases hempty : source = ""
  · subst hempty
    exact ⟨.nil, ⟨trivial, rfl⟩, Nat.zero_le _, rfl⟩
  · have hne : Token.ofText source.toList ≠ [] := by
      intro hnil
      have htext := Token.ofText_text source.toList
      rw [hnil] at htext
      exact hempty (String.toList_eq_nil_iff.1 htext.symm)
    refine ⟨.text _ hne (isText_of_unopened h) .nil, ⟨⟨endsText_nil, trivial⟩, ?_⟩,
      Nat.zero_le _, ?_⟩
    · exact List.append_nil _
    · simp [Derivation.blocks, Token.ofText_text, literalTree, hempty]

lemma isText_literalTree (source : String) : ∀ b ∈ literalTree source, b.isText = true := by
  intro b hb
  unfold literalTree at hb
  split_ifs at hb
  · cases hb
  · obtain rfl := List.mem_singleton.1 hb
    rfl

lemma letter_literalTree (setting : Render.Setting) (source : String) :
    Render.letter setting (literalTree source) = .ok source := by
  unfold literalTree
  split_ifs with hempty
  · exact congrArg Except.ok hempty.symm
  · have hwrite : Render.letter setting
        [.text source ⟨.start, Position.start.after source.toList⟩] = .ok ("" ++ source) := rfl
    rw [hwrite, String.empty_append]

/-- The template is read as text, and filled in as it stands. -/
structure Literal (source : String) : Prop where
  compile_eq : compile source = .ok (literalTree source)
  /-- The value that paths are looked up in makes no difference, nor does how markdown is read. -/
  letter_eq : ∀ setting, Render.letter setting (literalTree source) = .ok source
  /-- Data need no more than have a value. -/
  render_eq : ∀ data root, Value.ofDatum data = .ok root →
    render (literalTree source) data = .ok source

/-- **Literal templates.**  A template has a tree of nothing but text just in case there are no two
opening braces side by side in it.  Its tree is then the whole template as one run of text, if there
is any, and it is filled in as it stands. -/
theorem literal_iff (source : String) :
    ((∃ blocks, compile source = .ok blocks ∧ ∀ b ∈ blocks, b.isText = true) ↔
      ¬ ['{', '{'] <:+: source.toList) ∧
    (¬ ['{', '{'] <:+: source.toList → Literal source) := by
  refine ⟨⟨?_, fun h => ?_⟩, fun h => ⟨parse_of_unopened h _, fun setting => ?_, ?_⟩⟩
  · rintro ⟨blocks, hcompile, htext⟩
    exact unopened_of_isText hcompile htext
  · exact ⟨literalTree source, parse_of_unopened h _, isText_literalTree source⟩
  · exact letter_literalTree setting source
  · intro data root hdata
    have hrender : render (literalTree source) data =
        Render.letter ⟨root, Markdown.toHtml, unnamed⟩ (literalTree source) := by
      rw [render, Value.ofData, hdata]
      rfl
    rw [hrender, letter_literalTree]

/-- Closing delimiters and braces that stand alone are text like any other. -/
example : compile "a \x7b \x7d\x7d\x7d b\r\n\x7d\x7d\x7b" =
    .ok [.text "a \x7b \x7d\x7d\x7d b\r\n\x7d\x7d\x7b" ⟨.start, ⟨2, 3, 14⟩⟩] := by
  rfl

end Template
end FormLetter

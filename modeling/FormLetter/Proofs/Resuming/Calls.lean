/-
# A parser that is asked again

A parser that is asked again after a fault goes on with what is left of the template, as if that were
a template of its own in another place (`parse_behindCalls`).  Each call that fails has read the
opening delimiter of a tag, so the calls that fail are no more than these delimiters, and the first
call that does not fail has read the template to its end.

The one exception is the call that fails since a block would be one too many: the block stays counted,
and the next calls have less room than a new parser.
-/
import FormLetter.Proofs.Render.Writing
import FormLetter.Proofs.Resuming.Relocation
import FormLetter.Proofs.Resuming.Remainder

namespace FormLetter
namespace Template
namespace Parser

/-- The parser behind a number of calls. -/
def behindCalls (parser : Parser) : Nat → Parser
  | 0 => parser
  | n + 1 => (parser.behindCalls n).parse.2

/-- What is left to be read. -/
def rest (parser : Parser) : List Char := parser.unread.flatMap Segment.source

/-- Has the call failed since a block would have been one too many? -/
def tooDeep : Except Error (List Block) → Bool
  | .ok _ => false
  | .error e => e.cause = .nestingTooDeep

/-- What is read at the place `q`, given what is read from the same text on its own. -/
def resultAt (q : Position) (result : Except Error (List Block)) : Except Error (List Block) :=
  (result.map (Block.relocateAll q.plus)).mapError (Error.relocate (· + (q.line - 1)))

/-! ### A single call -/

/-- How the construction ends that a call starts. -/
def outcome (parser : Parser) : Draft.Outcome :=
  Draft.empty.run parser.counted parser.position parser.unread

/-- What a call can do: it reports what the construction ends with, and it stands where that has
stopped. -/
lemma parse_cases (parser : Parser) :
    (∃ blocks, parser.outcome.result = .ok blocks ∧
      parser.parse = (.ok blocks, { parser with
        position := parser.outcome.position
        unread := parser.outcome.unread })) ∨
    ∃ cause, parser.outcome.result = .error cause ∧
      parser.parse =
        (.error { cause, location := some ⟨parser.name, parser.outcome.position.line⟩ },
        { parser with
          position := parser.outcome.position
          unread := parser.outcome.unread
          counted := if cause = .nestingTooDeep then parser.counted + 1 else parser.counted }) := by
  simp only [parse, outcome]
  generalize Draft.empty.run parser.counted parser.position parser.unread = o
  obtain ⟨result, position, unread⟩ := o
  cases result with
  | ok blocks => exact Or.inl ⟨blocks, rfl, rfl⟩
  | error cause => exact Or.inr ⟨cause, rfl, rfl⟩

@[simp] lemma name_parse (parser : Parser) : parser.parse.2.name = parser.name := by
  rcases parser.parse_cases with ⟨_, -, h⟩ | ⟨_, -, h⟩ <;> rw [h]

lemma position_parse (parser : Parser) : parser.parse.2.position = parser.outcome.position := by
  rcases parser.parse_cases with ⟨_, -, h⟩ | ⟨_, -, h⟩ <;> rw [h]

lemma unread_parse (parser : Parser) : parser.parse.2.unread = parser.outcome.unread := by
  rcases parser.parse_cases with ⟨_, -, h⟩ | ⟨_, -, h⟩ <;> rw [h]

lemma result_of_parse_ok {parser : Parser} {blocks : List Block} (h : parser.parse.1 = .ok blocks) :
    parser.outcome.result = .ok blocks := by
  rcases parser.parse_cases with ⟨blocks', hresult, hparse⟩ | ⟨cause, hresult, hparse⟩
  · rw [hparse] at h
    rwa [← Except.ok.inj h]
  · simp [hparse] at h

lemma result_of_parse_error {parser : Parser} {e : Error} (h : parser.parse.1 = .error e) :
    parser.outcome.result = .error e.cause := by
  rcases parser.parse_cases with ⟨blocks', hresult, hparse⟩ | ⟨cause, hresult, hparse⟩
  · simp [hparse] at h
  · rw [hparse] at h
    rwa [← Except.error.inj h]

lemma result_of_tooDeep {parser : Parser} (h : tooDeep parser.parse.1 = true) :
    parser.outcome.result = .error .nestingTooDeep := by
  cases hcall : parser.parse.1 with
  | ok blocks => simp [hcall, tooDeep] at h
  | error e =>
    have hcause : e.cause = .nestingTooDeep := by simpa [hcall, tooDeep] using h
    rw [result_of_parse_error hcall, hcause]

/-- A call leaves the count of open blocks as it is, unless a block would have been one too many. -/
lemma counted_parse (parser : Parser) :
    parser.parse.2.counted = parser.counted + (tooDeep parser.parse.1).toNat := by
  rcases parser.parse_cases with ⟨_, -, h⟩ | ⟨cause, -, h⟩
  · rw [h]
    rfl
  · rw [h]
    by_cases hcause : cause = .nestingTooDeep <;> simp [tooDeep, hcause]

/-- A parser in another place. -/
lemma parse_moved (name : String) (unread : List Segment) (counted : Nat) {q : Position}
    (hq : 1 ≤ q.line) :
    (⟨name, q, unread, counted⟩ : Parser).parse.1 =
      resultAt q (⟨name, .start, unread, counted⟩ : Parser).parse.1 := by
  have hrun : Draft.empty.run counted q unread =
      (Draft.empty.run counted .start unread).relocate q.plus :=
    Draft.run_relocate Draft.empty (Position.moves_plus q) unread
  simp only [parse, hrun]
  generalize Draft.empty.run counted .start unread = o
  obtain ⟨_ | _, position, rest⟩ := o
  · simp [Draft.Outcome.relocate, resultAt, Except.map, Except.mapError, Error.relocate,
      Position.line_plus hq]
  · simp [Draft.Outcome.relocate, resultAt, Except.map, Except.mapError]

lemma parse_of_unread_nil {parser : Parser} (h : parser.unread = []) :
    parser.parse = (.ok [], parser) := by
  obtain ⟨name, position, unread, counted⟩ := parser
  subst h
  rfl

/-! ### Where a parser stands -/

/-- The parser has read the first tokens of the template, and the others are left. -/
structure StandsAt (parser : Parser) (source : String) (read left : List Token) : Prop where
  tokens_eq : Token.ofText source.toList = read ++ left
  position_eq : parser.position = Position.start.after (read.flatMap Token.text)
  unread_eq : parser.unread = Segment.ofTokens left

section

variable {parser : Parser} {source : String} {read left : List Token}

lemma standsAt_ofSource (source name : String) :
    (ofSource source name).StandsAt source [] (Token.ofText source.toList) :=
  ⟨rfl, rfl, rfl⟩

lemma StandsAt.ofText_rest (h : parser.StandsAt source read left) :
    Token.ofText parser.rest = left := by
  rw [rest, h.unread_eq]
  exact (Segment.segments_flatMap_source h.tokens_eq).2

lemma StandsAt.segments_rest (h : parser.StandsAt source read left) :
    segments (String.ofList parser.rest) = parser.unread := by
  rw [rest, h.unread_eq]
  exact (Segment.segments_flatMap_source h.tokens_eq).1

/-- A call reads some more tokens: all of them if it succeeds, and a delimiter that opens a tag if it
fails. -/
lemma StandsAt.parse (h : parser.StandsAt source read left) :
    ∃ taken left', left = taken ++ left' ∧ parser.parse.2.StandsAt source (read ++ taken) left' ∧
      (∀ blocks, parser.parse.1 = .ok blocks → left' = []) ∧
      ∀ e, parser.parse.1 = .error e → OpensTag taken := by
  obtain ⟨segments, htakes⟩ :=
    Draft.exists_taken parser.counted parser.position .empty parser.unread
  change Draft.Takes _ _ _ _ parser.outcome at htakes
  obtain ⟨taken, left', rfl, hunread, htext, htag⟩ :=
    Segment.exists_tokens (h.unread_eq.symm.trans htakes.eq_append)
  refine ⟨taken, left', rfl, ⟨by simp [h.tokens_eq], ?_, ?_⟩, fun blocks hok => ?_, fun e he => ?_⟩
  · rw [position_parse, htakes.position_eq, h.position_eq, ← htext, List.flatMap_append,
      Position.after_append]
  · rw [unread_parse, hunread]
  · rw [htakes.unread_of_ok blocks (result_of_parse_ok hok)] at hunread
    exact Segment.eq_nil_of_ofTokens hunread.symm
  · exact htag (htakes.exists_tag _ (result_of_parse_error he) rfl)

end

/-! ### A row of calls -/

section

variable (parser : Parser) (source name : String)

lemma behindCalls_add (m n : Nat) :
    (parser.behindCalls m).behindCalls n = parser.behindCalls (m + n) := by
  induction n with
  | zero => rfl
  | succ n ih => rw [behindCalls, ih, ← Nat.add_assoc, behindCalls]

lemma behindCalls_parse (n : Nat) : parser.parse.2.behindCalls n = parser.behindCalls (n + 1) := by
  rw [Nat.add_comm]
  exact parser.behindCalls_add 1 n

@[simp] lemma name_behindCalls (n : Nat) : (parser.behindCalls n).name = parser.name := by
  induction n with
  | zero => rfl
  | succ n ih => rw [behindCalls, name_parse, ih]

/-- Each call that has failed since a block would have been one too many has left a block counted. -/
theorem counted_behindCalls (n : Nat) :
    (parser.behindCalls n).counted = parser.counted +
      (List.range n).countP fun k => tooDeep (parser.behindCalls k).parse.1 := by
  induction n with
  | zero => rfl
  | succ n ih =>
    rw [behindCalls, counted_parse, ih, List.range_succ, List.countP_append, ← Nat.add_assoc,
      List.countP_singleton]
    cases tooDeep (parser.behindCalls n).parse.1 <;> rfl

/-- Behind any number of calls the parser stands somewhere in the template. -/
lemma exists_standsAt (n : Nat) :
    ∃ read left, ((ofSource source name).behindCalls n).StandsAt source read left := by
  induction n with
  | zero => exact ⟨_, _, standsAt_ofSource source name⟩
  | succ n ih =>
    obtain ⟨read, left, h⟩ := ih
    obtain ⟨taken, left', -, h', -⟩ := h.parse
    exact ⟨_, _, h'⟩

end

section

variable {parser : Parser} {source : String} {read left : List Token}

lemma StandsAt.one_le_line (h : parser.StandsAt source read left) : 1 ≤ parser.position.line := by
  rw [h.position_eq]
  exact Position.line_le_after .start _

/-- A parser that counts no block as open reads what is left as a new parser would. -/
lemma StandsAt.parse_eq (h : parser.StandsAt source read left) (hcounted : parser.counted = 0) :
    parser.parse.1 =
      resultAt parser.position (Template.parse (String.ofList parser.rest) parser.name) := by
  have hmoved := parse_moved parser.name parser.unread 0 h.one_le_line
  rw [← hcounted] at hmoved
  rw [Template.parse, ofSource, h.segments_rest, ← hcounted]
  exact hmoved

/-- Once nothing is left, nothing more is read. -/
lemma behindCalls_of_unread_nil (h : parser.unread = []) (n : Nat) :
    parser.behindCalls n = parser := by
  induction n with
  | zero => rfl
  | succ n ih => rw [behindCalls, ih, parse_of_unread_nil h]

lemma StandsAt.of_ok (h : parser.StandsAt source read left) {blocks : List Block}
    (hok : parser.parse.1 = .ok blocks) :
    parser.parse.2.StandsAt source (Token.ofText source.toList) [] := by
  obtain ⟨taken, left', -, h', hnil, -⟩ := h.parse
  obtain rfl := hnil blocks hok
  have hread := h'.tokens_eq
  rw [List.append_nil] at hread
  rwa [hread]

/-- The calls that fail in a row are no more than the delimiters left that open a tag. -/
theorem StandsAt.exists_ok (h : parser.StandsAt source read left) :
    ∃ k ≤ left.countP (!·.isText), (∀ j < k, ∃ e, (parser.behindCalls j).parse.1 = .error e) ∧
      ∃ blocks, (parser.behindCalls k).parse.1 = .ok blocks := by
  induction hn : left.countP (!·.isText) using Nat.strong_induction_on
    generalizing parser read left with
  | _ n ih =>
    cases hcall : parser.parse.1 with
    | ok blocks => exact ⟨0, Nat.zero_le _, by simp, blocks, hcall⟩
    | error e =>
      obtain ⟨taken, left', rfl, h', -, htag⟩ := h.parse
      have hpos := (htag e hcall).countP_pos
      rw [List.countP_append] at hn
      obtain ⟨k, hk, hfail, blocks, hok⟩ := ih _ (by omega) h' rfl
      refine ⟨k + 1, by omega, fun j hj => ?_, blocks, by rwa [← behindCalls_parse]⟩
      cases j with
      | zero => exact ⟨e, hcall⟩
      | succ j =>
        rw [← behindCalls_parse]
        exact hfail j (by omega)

end

/-- **Resuming.**  A parser that is asked again and again stands behind some of the tokens of the
template.  As long as no call has failed for a block too many, each call gives what a new parser
gives for the text that is left, in its place.  A call that fails has read a delimiter that opens a
tag; so one of the first calls does not fail, and from then on there is nothing left. -/
theorem parse_behindCalls (source name : String) :
    let parser := (ofSource source name).behindCalls
    (∀ n, ∃ read, Token.ofText source.toList = read ++ Token.ofText (parser n).rest ∧
      (parser n).position = Position.start.after (read.flatMap Token.text)) ∧
    (∀ n, (∀ k < n, tooDeep (parser k).parse.1 = false) →
      (parser n).parse.1 =
        resultAt (parser n).position (Template.parse (String.ofList (parser n).rest) name)) ∧
    (∀ n e, (parser n).parse.1 = .error e → ∃ read, OpensTag read ∧
      Token.ofText (parser n).rest = read ++ Token.ofText (parser (n + 1)).rest) ∧
    (∃ k ≤ (Token.ofText source.toList).countP (!·.isText),
      (∀ j < k, ∃ e, (parser j).parse.1 = .error e) ∧ ∃ blocks, (parser k).parse.1 = .ok blocks) ∧
    (∀ n blocks, (parser n).parse.1 = .ok blocks → (parser (n + 1)).rest = [] ∧
      (parser (n + 1)).position = Position.start.after source.toList ∧
      ∀ m, n < m → (parser m).parse.1 = .ok []) := by
  intro parser
  refine ⟨fun n => ?_, fun n hn => ?_, fun n e he => ?_, ?_, fun n blocks hok => ?_⟩
  · obtain ⟨read, left, h⟩ := exists_standsAt source name n
    exact ⟨read, by rw [h.ofText_rest, h.tokens_eq], h.position_eq⟩
  · obtain ⟨read, left, h⟩ := exists_standsAt source name n
    have hcounted : (parser n).counted = 0 := by
      rw [counted_behindCalls, List.countP_eq_zero.2]
      · rfl
      · intro k hk
        simpa using hn k (List.mem_range.1 hk)
    rw [h.parse_eq hcounted, name_behindCalls]
    rfl
  · obtain ⟨read, left, h⟩ := exists_standsAt source name n
    obtain ⟨taken, left', rfl, h', -, htag⟩ := h.parse
    refine ⟨taken, htag e he, ?_⟩
    change _ = taken ++ Token.ofText (parser n).parse.2.rest
    rw [h.ofText_rest, h'.ofText_rest]
  · exact (standsAt_ofSource source name).exists_ok
  · obtain ⟨read, left, h⟩ := exists_standsAt source name n
    have hend := h.of_ok hok
    have hunread : (parser (n + 1)).unread = [] := hend.unread_eq
    refine ⟨by rw [rest, hunread]; rfl, ?_, fun m hm => ?_⟩
    · rw [← Token.ofText_text source.toList]
      exact hend.position_eq
    · obtain ⟨i, rfl⟩ := Nat.exists_eq_add_of_le (Nat.succ_le_of_lt hm)
      have hsame : parser (n + 1 + i) = parser (n + 1) := by
        rw [← behindCalls_of_unread_nil hunread i]
        exact (behindCalls_add _ (n + 1) i).symm
      rw [Nat.succ_eq_add_one, hsame, parse_of_unread_nil hunread]

end Parser
end Template
end FormLetter

/-
# Lines folded into blocks

The blocks of a markdown text can be told from its lines.  A heading is a line of its own.  An item
and a paragraph start with a line and take in the text lines directly behind it; what is left of these
lines when they are trimmed stands in one text, with single spaces between the pieces.  `Line.blocks`
says so line by line, and it agrees with the blocks that are built token by token
(`ofTokens_ofText_eq_blocks`).
-/
import FormLetter.Markdown.Block
import FormLetter.Proofs.Markdown.Lines
import FormLetter.Text.Cutting

namespace FormLetter
namespace Markdown

/-- The text of an item or a paragraph that is made of the given pieces. -/
def folded (pieces : List (List Char)) : List Char :=
  Text.join ' ' ((pieces.map Text.trim).filter (· ≠ []))

namespace Line

/-- The text lines that some lines start with. -/
def texts : List Line → List (List Char)
  | text first rest :: lines => (first :: rest) :: texts lines
  | _ => []

/-- The blocks of some lines, in their order.  A text line goes on with the block in front of it if
the line in front of it is a part of an item or a paragraph. -/
def blocks (goesOn : Bool) : List Line → List Block
  | [] => []
  | heading further title :: lines =>
    .heading (further + 1) (String.ofList (Text.trim title)) :: blocks false lines
  | item words :: lines =>
    .item (String.ofList (folded (words :: texts lines))) :: blocks true lines
  | blank :: lines => blocks false lines
  | text first rest :: lines =>
    if goesOn then blocks true lines
    else .paragraph (String.ofList (folded ((first :: rest) :: texts lines))) :: blocks true lines

end Line

/-! ### Pieces with spaces between them -/

lemma join_concat (separator : Char) {parts : List (List Char)} (hne : parts ≠ [])
    (part : List Char) :
    Text.join separator (parts ++ [part]) = Text.join separator parts ++ separator :: part := by
  induction parts with
  | nil => exact absurd rfl hne
  | cons first parts ih =>
    cases parts with
    | nil => rfl
    | cons second parts =>
      simp only [List.cons_append, Text.join, List.append_assoc] at ih ⊢
      rw [ih (by simp)]

lemma join_ne_nil (separator : Char) {parts : List (List Char)} (hne : parts ≠ [])
    (hparts : ∀ part ∈ parts, part ≠ []) : Text.join separator parts ≠ [] := by
  match parts with
  | [] => exact absurd rfl hne
  | [part] => exact hparts part (by simp)
  | first :: second :: parts => simp [Text.join]

/-- A line is added to a text like a piece. -/
lemma addLine_folded (pieces : List (List Char)) (line : List Char) :
    addLine (folded pieces) line = folded (pieces ++ [line]) := by
  rw [folded, folded, List.map_append, List.filter_append]
  generalize hkept : (pieces.map Text.trim).filter (· ≠ []) = kept
  have hparts : ∀ part ∈ kept, part ≠ [] := by
    subst hkept
    intro part hpart
    simpa using (List.mem_filter.1 hpart).2
  by_cases hline : Text.trim line = []
  · simp [addLine, hline]
  · have hpiece : ([line].map Text.trim).filter (· ≠ []) = [Text.trim line] := by simp [hline]
    rw [hpiece]
    by_cases hnil : kept = []
    · simp [hnil, addLine, Text.join]
    · rw [join_concat ' ' hnil]
      unfold addLine
      split
      · next h => exact absurd h hline
      · next h _ => exact absurd h (join_ne_nil ' ' hnil hparts)
      · rfl

namespace Block

open Line

/-! ### Tokens that go on with a block, and tokens that do not -/

lemma behind_none_cons (t : Token) (ts : List Token) :
    behind .none (t :: ts) = behind (.start t) ts := by
  cases t <;> rfl

/-- If the next token is not part of the block, the block is finished. -/
lemma behind_eq_finish {d : Draft} {ts : List Token} (h : ∀ t ∈ ts.head?, d.extend t = Option.none) :
    behind d ts = d.finish ++ behind .none ts := by
  cases ts with
  | nil => simp [behind, Draft.finish]
  | cons t ts =>
    rw [behind, h t rfl, behind_none_cons]

/-- The letters of a line are kept last one first. -/
lemma behind_letters {write : List Char → Draft}
    (h : ∀ line c, (write line).extend (.letter c) = some (write (c :: line)))
    (cs line : List Char) (ts : List Token) :
    behind (write line) (cs.map Token.letter ++ ts) = behind (write (cs.reverse ++ line)) ts := by
  induction cs generalizing line with
  | nil => rfl
  | cons c cs ih =>
    rw [List.map_cons, List.cons_append, behind, h]
    simp [ih]

lemma extend_heading (level : Nat) (line : List Char) (c : Char) :
    (Draft.heading level line).extend (.letter c) = some (.heading level (c :: line)) := by
  cases line <;> rfl

lemma behind_headings (level further : Nat) (ts : List Token) :
    behind (.heading level []) (List.replicate further Token.heading ++ ts) =
      behind (.heading (level + further) []) ts := by
  induction further generalizing level with
  | zero => rfl
  | succ further ih =>
    rw [List.replicate_succ, List.cons_append, behind, Draft.extend]
    simp only [ih]
    rw [Nat.add_assoc, Nat.add_comm 1]

lemma head_tokensBehind (lines : List Line) : ∀ t ∈ (tokensBehind lines).head?, t = .lineBreak := by
  cases lines <;> simp [tokensBehind]

/-! ### Blocks line by line -/

/-- Behind a line the tokens of the other lines are read as the blocks of these lines. -/
structure Agree (lines : List Line) : Prop where
  /-- Behind a line of an item or a paragraph. -/
  flow : ∀ kind pieces line, behind (.flow kind (folded pieces) line) (tokensBehind lines) =
    kind.block (folded (pieces ++ line.reverse :: texts lines)) :: blocks true lines
  /-- Behind any other line. -/
  none : behind .none (tokensBehind lines) = blocks false lines

lemma Agree.fresh {lines : List Line} (h : Agree lines) (kind : Flow) (line : List Char) :
    behind (.flow kind [] line) (tokensBehind lines) =
      kind.block (folded (line.reverse :: texts lines)) :: blocks true lines :=
  h.flow kind [] line

/-- A line that does not go on with a block. -/
lemma Agree.line {lines : List Line} (h : Agree lines) (line : Line) :
    behind .none (line.tokens ++ tokensBehind lines) = blocks false (line :: lines) := by
  cases line with
  | heading further title =>
    rw [Line.tokens, List.replicate_succ, List.cons_append, List.cons_append, behind_none_cons,
      List.append_assoc, Draft.start, behind_headings, behind_letters (extend_heading _),
      behind_eq_finish, h.none]
    · simp [Draft.finish, blocks, Nat.add_comm]
    · intro t ht
      rw [head_tokensBehind _ t ht]
      cases title.reverse ++ [] <;> rfl
  | item words =>
    rw [Line.tokens, List.cons_append, behind_none_cons, Draft.start,
      behind_letters fun _ _ => rfl, h.fresh]
    simp [blocks, Flow.block]
  | blank => exact h.none
  | text first rest =>
    rw [Line.tokens, List.map_cons, List.cons_append, behind_none_cons, Draft.start,
      behind_letters fun _ _ => rfl, h.fresh]
    simp [blocks, Flow.block]

theorem agree (lines : List Line) : Agree lines := by
  induction lines with
  | nil =>
    refine ⟨fun kind pieces line => ?_, rfl⟩
    exact congrArg (fun cs => [kind.block cs]) (addLine_folded pieces line.reverse)
  | cons line lines ih =>
    refine ⟨fun kind pieces letters => ?_, ih.line line⟩
    -- the block has come to the end of its line, and this line goes on with it if it is text
    have hbreak : behind (.flow kind (folded pieces) letters) (tokensBehind (line :: lines)) =
        behind (.pause kind (folded (pieces ++ [letters.reverse])))
          (line.tokens ++ tokensBehind lines) := by
      rw [← addLine_folded]
      rfl
    have hother (htext : ∀ t ∈ (line.tokens ++ tokensBehind lines).head?, ∀ c, t ≠ .letter c)
        (hblocks : blocks true (line :: lines) = blocks false (line :: lines))
        (htexts : texts (line :: lines) = []) :
        behind (.flow kind (folded pieces) letters) (tokensBehind (line :: lines)) =
          kind.block (folded (pieces ++ letters.reverse :: texts (line :: lines))) ::
            blocks true (line :: lines) := by
      rw [hbreak, behind_eq_finish, ih.line, hblocks, htexts]
      · rfl
      · intro t ht
        cases t with
        | letter c => exact absurd rfl (htext _ ht c)
        | _ => rfl
    cases line with
    | heading further title => exact hother (by simp [Line.tokens, List.replicate_succ]) rfl rfl
    | item words => exact hother (by simp [Line.tokens]) rfl rfl
    | blank =>
      refine hother (fun t ht c => ?_) rfl rfl
      rw [head_tokensBehind lines t ht]
      simp
    | text first rest =>
      rw [hbreak, Line.tokens, List.map_cons, List.cons_append, behind]
      simp only [Draft.extend]
      rw [behind_letters fun _ _ => rfl, ih.flow]
      simp [texts, blocks]

/-- **Line by line.**  The blocks of a markdown text are those of its lines. -/
theorem ofTokens_ofText_eq_blocks (text : String) :
    ofTokens (Token.ofText text) = Line.blocks false (Line.ofText text) := by
  obtain ⟨line, rest, ending, hcut, -⟩ := exists_cut text.toList
  have hlines : Line.ofText text = ofChars line :: rest.map ofChars := by
    rw [Line.ofText, hcut, List.map_cons]
  rw [ofTokens, Token.ofText_eq_lines text hlines, (agree _).line, hlines]

/-- The blank second line keeps the paragraph apart from the first one, and the line of a space does
not; a carriage return ends a line only in front of a line feed. -/
example : Line.blocks false (Line.ofText "one\r\n\r\ntwo\n \nthree\r\n## H #\r\n#four") =
    [.paragraph "one", .paragraph "two three", .heading 2 "H #", .paragraph "#four"] := by
  decide

end Block
end Markdown
end FormLetter

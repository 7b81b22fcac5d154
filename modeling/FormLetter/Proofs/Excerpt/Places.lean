/-
# The lines that errors point at

The line of an error is counted by the line feeds in front of its place, and an excerpt shows the
lines that these line feeds end.  A text has one more line if it goes on behind the last line feed
(`length_lines`).  So an error of a template stands on one of its lines, or, behind a line feed at
the end of the template, on the line that would be the next one (`placedIn_of_raisedBy`).
-/
import FormLetter.Proofs.Environment
import FormLetter.Proofs.Excerpt.Window
import FormLetter.Proofs.Render.FirstFault
import FormLetter.Proofs.Resuming.Calls

namespace FormLetter

namespace Text

lemma lines_ne_nil {cs : List Char} (h : cs ≠ []) : lines cs ≠ [] := by
  fun_cases lines cs <;> simp_all

/-- Each line feed ends a line, and one more line ends with the text unless a line feed does. -/
theorem length_lines (cs : List Char) :
    (lines cs).length = cs.count '\n' + if cs.getLast?.all (· = '\n') then 0 else 1 := by
  have hfeed_cons (cs : List Char) :
      ('\n' :: cs).getLast?.all (· = '\n') = cs.getLast?.all (· = '\n') := by
    rw [List.getLast?_cons]
    cases cs.getLast? <;> rfl
  fun_induction lines cs with
  | case1 => rfl
  | case2 cs ih =>
    rw [hfeed_cons, List.count_cons_self, List.length_cons, ih]
    omega
  | case3 cs ih =>
    rw [List.getLast?_cons_cons, hfeed_cons, List.count_cons_of_ne (by decide),
      List.count_cons_self, List.length_cons, ih]
    omega
  | case4 c cs hfeed hreturn hlines ih =>
    have hcs : cs = [] := by
      by_contra hcs
      exact lines_ne_nil hcs hlines
    subst hcs
    rw [List.count_cons_of_ne hfeed]
    simpa using hfeed
  | case5 c cs hfeed hreturn line rest hlines ih =>
    have hcs : cs ≠ [] := by
      rintro rfl
      simp [lines] at hlines
    obtain ⟨d, ds, rfl⟩ := List.exists_cons_of_ne_nil hcs
    rw [List.getLast?_cons_cons, List.count_cons_of_ne hfeed, ← ih, hlines, List.length_cons,
      List.length_cons]

lemma feed_notMem_of_mem_lines {cs line : List Char} (h : line ∈ lines cs) : '\n' ∉ line := by
  fun_induction lines cs generalizing line with
  | case1 => exact absurd h List.not_mem_nil
  | case2 cs ih => rcases List.mem_cons.1 h with rfl | h <;> simp_all
  | case3 cs ih => rcases List.mem_cons.1 h with rfl | h <;> simp_all
  | case4 c cs hfeed hreturn hlines ih =>
    obtain rfl := List.mem_singleton.1 h
    simpa using Ne.symm hfeed
  | case5 c cs hfeed hreturn first rest hlines ih =>
    rw [hlines] at ih
    rcases List.mem_cons.1 h with rfl | h
    · exact List.mem_cons.not.2 (not_or.2 ⟨Ne.symm hfeed, ih List.mem_cons_self⟩)
    · exact ih (List.mem_cons_of_mem _ h)

end Text

/-! ### Lines of a source -/

/-- The line is one of the source, or the one that would follow the line feed at its end. -/
structure LineOf (source : String) (line : Nat) : Prop where
  one_le : 1 ≤ line
  le_succ : line ≤ (Text.lines source.toList).length + 1
  getLast?_of_eq : line = (Text.lines source.toList).length + 1 →
    source.toList.getLast? = some '\n'

open Template (Position Token)

/-- A place inside a template that is not empty stands on one of its lines. -/
lemma lineOf_of_tokens {source : String} {read left : List Token}
    (h : Token.ofText source.toList = read ++ left) (hne : read ++ left ≠ []) :
    LineOf source (Position.start.after (read.flatMap Token.text)).line := by
  have hsource : source.toList = read.flatMap Token.text ++ left.flatMap Token.text := by
    rw [← List.flatMap_append, ← h, Token.ofText_text]
  have hcount : (read.flatMap Token.text).count '\n' ≤ source.toList.count '\n' := by
    rw [hsource, List.count_append]
    exact Nat.le_add_right _ _
  have hline : (Position.start.after (read.flatMap Token.text)).line =
      1 + (read.flatMap Token.text).count '\n' := Position.line_after _ _
  have hlines := Text.length_lines source.toList
  refine ⟨by omega, by omega, fun heq => ?_⟩
  -- otherwise the last line goes on behind the last line feed
  have hall : source.toList.getLast?.all (· = '\n') = true := by
    by_contra hall
    rw [if_neg hall] at hlines
    omega
  cases hlast : source.toList.getLast? with
  | none =>
    rw [List.getLast?_eq_none_iff.1 hlast] at h
    exact absurd h.symm hne
  | some c =>
    rw [hlast] at hall
    simpa using hall

/-! ### Errors of a template -/

namespace Template

lemma lineOf_parse {source name : String} {e : Error} (h : parse source name = .error e) :
    ∃ line, e.location = some ⟨name, line⟩ ∧ LineOf source line := by
  obtain ⟨taken, left, htokens, hstands, -, hopens⟩ :=
    (Parser.standsAt_ofSource source name).parse
  obtain ⟨fence, hmem⟩ := hopens e h
  refine ⟨(Parser.ofSource source name).parse.2.position.line, ?_, ?_⟩
  · rw [Parser.position_parse]
    rcases (Parser.ofSource source name).parse_cases with ⟨blocks, -, hparse⟩ | ⟨cause, -, hparse⟩
    · rw [parse, hparse] at h
      simp at h
    · rw [parse, hparse] at h
      obtain rfl := Except.error.inj h
      rfl
  · rw [hstands.position_eq]
    refine lineOf_of_tokens hstands.tokens_eq fun hnil => ?_
    rw [List.append_eq_nil_iff.1 (List.append_eq_nil_iff.1 hnil).1 |>.2] at hmem
    exact absurd hmem List.not_mem_nil

lemma Block.OpenedBy.ne_nil {b : Block} {tag : List Token} (h : b.OpenedBy tag) : tag ≠ [] := by
  cases h <;> exact List.cons_ne_nil _ _

end Template

namespace Render

lemma lineOf_letter {source name : String} {setting : Setting} {bs : List Template.Block}
    {e : Error} (hparse : Template.parse source name = .ok bs)
    (h : letter setting bs = .error e) :
    ∃ line, e.location = some ⟨setting.name, line⟩ ∧ LineOf source line := by
  obtain ⟨b, page, later, cause, hreaches, hunusable, rfl⟩ := letter_eq_error_iff.1 h
  obtain ⟨row, hrow, hb⟩ := hreaches.exists_row
  obtain ⟨path, -, -, hpath, -⟩ := hunusable.exists_path
  obtain ⟨read, tag, unread, htokens, hopened, hstart⟩ :=
    Template.exists_openedBy_of_parse hparse hrow hb hpath
  refine ⟨b.span.start.line, rfl, ?_⟩
  rw [hstart]
  rw [List.append_assoc] at htokens
  exact lineOf_of_tokens htokens (by simp [hopened.ne_nil])

end Render

namespace Error

/-- The error comes up when the template with the given source is read or filled in. -/
inductive RaisedBy (source : String) : Error → Prop
  | parse {name : String} {e : Error} (h : Template.parse source name = .error e) :
    RaisedBy source e
  | letter {name : String} {blocks : List Template.Block} {setting : Render.Setting} {e : Error}
      (hparse : Template.parse source name = .ok blocks)
      (h : Render.letter setting blocks = .error e) : RaisedBy source e
  | render {name : String} {blocks : List Template.Block} {data : Datum} {e : Error}
      (hparse : Template.parse source name = .ok blocks)
      (h : FormLetter.render blocks data = .error e) : RaisedBy source e
  | add {env : Environment} {name : String} {e : Error} (h : env.add name source = .error e) :
    RaisedBy source e
  /-- An environment fills in a letter that it holds or that the caller holds. -/
  | kept {env : Environment} {name : String} {letter : Letter} {data : Datum} {e : Error}
      (hletter : Letter.ofSource name source = .ok letter)
      (h : env.render letter data = .error e) : RaisedBy source e
  /-- An environment reads a template and fills it in without keeping it. -/
  | unkept {env : Environment} {data : Datum} {e : Error}
      (h : env.renderText source data = .error e) : RaisedBy source e

/-- If the error has a place, it is on a line of the source. -/
def PlacedIn (source : String) (e : Error) : Prop :=
  ∀ l, e.location = some l → LineOf source l.line

variable {source : String} {e : Error}

lemma placedIn_of_exists {name : String}
    (h : ∃ line, e.location = some ⟨name, line⟩ ∧ LineOf source line) : e.PlacedIn source := by
  intro l hl
  obtain ⟨line, hlocation, hline⟩ := h
  obtain rfl := Option.some.inj (hl.symm.trans hlocation)
  exact hline

lemma PlacedIn.report (h : e.PlacedIn source) (env : Environment) (attached : String) :
    (env.report attached e).PlacedIn source := by
  intro l hl
  rw [Environment.location_report] at hl
  exact h l hl

/-- The data of a letter has no place, so only what is done with its value can have one. -/
lemma placedIn_of_bind {data : Datum} {f : Value → Except Error String}
    (hf : ∀ root e, f root = .error e → e.PlacedIn source)
    (h : Value.ofData data >>= f = .error e) : e.PlacedIn source := by
  rcases Environment.ofData_bind_eq_error_iff.1 h with ⟨cause, -, rfl⟩ | ⟨root, -, hroot⟩
  · exact fun l hl => absurd hl (by simp)
  · exact hf root e hroot

lemma placedIn_fill {env : Environment} {name name' : String} {blocks : List Template.Block}
    (hparse : Template.parse source name = .ok blocks) {root : Value}
    (h : env.fill name' blocks root = .error e) : e.PlacedIn source :=
  placedIn_of_exists (Render.lineOf_letter hparse h)

/-- An error of a template with a place is on a line of its source. -/
theorem placedIn_of_raisedBy (h : e.RaisedBy source) : e.PlacedIn source := by
  cases h with
  | parse h => exact placedIn_of_exists (Template.lineOf_parse h)
  | letter hparse h => exact placedIn_of_exists (Render.lineOf_letter hparse h)
  | render hparse h =>
    rw [Environment.render_tree] at h
    exact placedIn_of_bind (fun _ _ => placedIn_fill hparse) h
  | @add env name e h =>
    cases hparse : Template.parse source name with
    | ok blocks => simp [Environment.add_of_parse hparse] at h
    | error e₀ =>
      rw [Environment.add_of_parse_error hparse] at h
      obtain rfl := Except.error.inj h
      exact (placedIn_of_exists (Template.lineOf_parse hparse)).report env source
  | @kept env name letter data e hletter h =>
    obtain ⟨blocks, hparse, rfl⟩ := Environment.ofSource_eq_ok_iff.1 hletter
    obtain ⟨e₀, rfl, h₀⟩ := Environment.exists_of_mapError h
    exact (placedIn_of_bind (fun _ _ => placedIn_fill hparse) h₀).report env _
  | @unkept env data e h =>
    obtain ⟨e₀, rfl, h₀⟩ := Environment.exists_of_mapError h
    refine (placedIn_of_bind (fun root e he => ?_) h₀).report env _
    rcases Environment.bind_eq_error_iff.1 he with hparse | ⟨blocks, hparse, hfill⟩
    · exact placedIn_of_exists (Template.lineOf_parse hparse)
    · exact placedIn_fill hparse hfill

/-- **Excerpts.**  The long message of an error with a place shows the lines around that place, and
the place of an error of a template is on one of its lines, or behind the line feed at its end. -/
theorem excerpt_window :
    (∀ (e : Error) (l : Location) (source : String), e.location = some l → 1 ≤ l.line →
      e.source = some source →
      ∃ rows, e.longMessage = e.message ++ "\n" ++ String.ofList (Excerpt.page rows) ∧
        Excerpt.IsWindow l.line source rows ∧
        ∀ n, (∃ r ∈ rows, r.mark = '>' ∧ r.number = n) ↔
          n = l.line ∧ n ≤ (Text.lines source.toList).length) ∧
    ∀ (source : String) (e : Error) (l : Location), e.RaisedBy source → e.location = some l →
      1 ≤ l.line ∧ l.line ≤ (Text.lines source.toList).length + 1 ∧
        (l.line = (Text.lines source.toList).length + 1 → source.toList.getLast? = some '\n') := by
  refine ⟨fun e l source hlocation hline hsource => ?_, fun source e l hraised hlocation => ?_⟩
  · obtain ⟨rows, hrows, hwindow⟩ := Excerpt.exists_rows hline source
    refine ⟨rows, ?_, hwindow, fun n => hwindow.mem_mark_iff hline⟩
    have hplace : e.line = l.line := by rw [Error.line, hlocation, Option.elim_some]
    rw [longMessage, hsource, Option.elim_some, hplace, hrows, String.append_assoc]
  · have hplace := placedIn_of_raisedBy hraised l hlocation
    exact ⟨hplace.one_le, hplace.le_succ, hplace.getLast?_of_eq⟩

/-- The condition on the third line is not closed, which is noticed on the fourth line. -/
theorem excerpt_window_unclosed :
    let source := "line one\nline two\n\x7b\x7b#if x\x7d\x7d\nline four"
    let e : Error :=
      { cause := .unclosedBlock "if", location := some ⟨"letter", 4⟩, source := some source }
    ({} : Environment).add "letter" source = .error e ∧
      (∃ rows, e.longMessage = e.message ++ "\n" ++ String.ofList (Excerpt.page rows) ∧
        Excerpt.IsWindow 4 source rows ∧ ∀ n, (∃ r ∈ rows, r.mark = '>' ∧ r.number = n) ↔
          n = 4 ∧ n ≤ (Text.lines source.toList).length) ∧
      1 ≤ 4 ∧ 4 ≤ (Text.lines source.toList).length + 1 ∧
        (4 = (Text.lines source.toList).length + 1 → source.toList.getLast? = some '\n') := by
  intro source e
  have hadd : ({} : Environment).add "letter" source = .error e := by
    unfold source e
    rfl
  exact ⟨hadd, excerpt_window.1 e ⟨"letter", 4⟩ source rfl (by decide) rfl,
    excerpt_window.2 source e ⟨"letter", 4⟩ (.add hadd) rfl⟩

end Error
end FormLetter

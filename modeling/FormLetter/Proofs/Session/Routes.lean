/-
# The ways to fill in a letter

A letter can be filled in under its name, or its template as a text without a name, or the tree of
the template apart from any environment.  All ways give the same text or the same error, except for
what they know of the template: the first places an error under the name of the letter, the last
does not carry the source (`routes_agree`).  The name of a template makes a difference to the place
of an error only (`parse_inTemplate`, `letter_inTemplate`).
-/
import FormLetter.Proofs.Render.Writing
import FormLetter.Proofs.Session.History

namespace FormLetter

/-- The error as it is placed in the template of the given name. -/
def Error.inTemplate (name : String) (e : Error) : Error := e.placed fun l => ⟨name, l.line⟩

/-! ### The name of a template -/

theorem Template.parse_inTemplate (source name name' : String) :
    parse source name' = (parse source name).mapError (Error.inTemplate name') := by
  simp only [parse, Parser.ofSource, Parser.parse]
  cases (Draft.empty.run 0 .start (segments source)).result <;> rfl

/-- A template has the same tree under each name. -/
lemma Template.parse_of_parse {source name name' : String} {blocks : List Template.Block}
    (h : parse source name = .ok blocks) : parse source name' = .ok blocks := by
  rw [parse_inTemplate source name, h]
  rfl

theorem Render.letter_inTemplate (setting : Setting) (name : String) (bs : List Template.Block) :
    letter { setting with name } bs = (letter setting bs).mapError (Error.inTemplate name) := by
  have h : blocks { setting with name } (Template.Block.relocateAll id bs) (Page.blank.behind "") =
      transferred (fun l => ⟨name, l.line⟩) "" (blocks setting bs .blank) :=
    blocks_transferred (fun _ => rfl) "" bs .blank
  rw [Template.Block.relocateAll_id, behind_empty] at h
  rw [letter, letter, h]
  rcases blocks setting bs .blank with ⟨_ | _, page⟩
  · rfl
  · simp [transferred, Except.mapError]

namespace Environment

variable {env : Environment}

lemma report_inTemplate (name source : String) (e : Error) :
    env.report source (e.inTemplate name) = (env.report source e).inTemplate name := by
  rw [report, report]
  split_ifs <;> rfl

/-! ### A letter and the text of its template -/

lemma fill_inTemplate (name name' : String) (blocks : List Template.Block) (root : Value) :
    env.fill name' blocks root = (env.fill name blocks root).mapError (Error.inTemplate name') :=
  Render.letter_inTemplate ⟨root, env.markdown, name⟩ name' blocks

theorem render_inTemplate (env : Environment) (letter : Letter) (name : String) (data : Datum) :
    env.render { letter with name } data =
      (env.render letter data).mapError (Error.inTemplate name) := by
  rw [render, render, Value.ofData]
  cases Value.ofDatum data with
  | error cause => exact congrArg Except.error (report_inTemplate name letter.source { cause })
  | ok root =>
    change (env.fill name letter.blocks root).mapError (env.report letter.source) =
      ((env.fill letter.name letter.blocks root).mapError (env.report letter.source)).mapError
        (Error.inTemplate name)
    rw [fill_inTemplate letter.name name]
    cases env.fill letter.name letter.blocks root with
    | error e => exact congrArg Except.error (report_inTemplate name letter.source e)
    | ok text => rfl

theorem renderText_of_parse {letter : Letter}
    (h : Template.parse letter.source letter.name = .ok letter.blocks) (data : Datum) :
    env.renderText letter.source data =
      env.render { letter with name := Template.unnamed } data := by
  have hcompile : Template.compile letter.source = .ok letter.blocks := Template.parse_of_parse h
  rw [renderText, render, hcompile]
  rfl

/-- The tree of a template is filled in as in an environment with debug mode off. -/
theorem plain_render_tree (letter : Letter) (hname : letter.name = Template.unnamed)
    (hmarkdown : env.markdown = Markdown.toHtml) (data : Datum) :
    env.plain.render letter data = FormLetter.render letter.blocks data := by
  have hfill : env.plain.fill letter.name letter.blocks =
      Environment.fill {} Template.unnamed letter.blocks := by
    funext root
    rw [fill, fill, hname]
    exact congrArg (fun markdown => Render.letter ⟨root, markdown, _⟩ letter.blocks) hmarkdown
  rw [render, hfill, render_tree]
  cases Value.ofData data >>= Environment.fill {} Template.unnamed letter.blocks <;> rfl

end Environment

open Environment

/-- **Routes.**  In an environment behind any steps there is a letter of a name.  To fill it in
under its name gives the same as to fill in its template as a text, except that an error is placed in
the template of that name and not in one without a name; it has no place if the data has no value.
If markdown is still read as at the start, to fill in the tree of the template gives the same as well,
except that an error does not carry the source.  Under another name the template has the same tree
and gives the same text or the same error in the template of that name. -/
theorem routes_agree (steps : List Session.Step) (env : Environment)
    (henv : env ∈ (Session.initial.behind steps).environments) (name : String) (letter : Letter)
    (hget : env.get name = .ok letter) (data : Datum) :
    (env.render letter data =
        (env.renderText letter.source data).mapError (Error.inTemplate name) ∧
      ∀ e, env.renderText letter.source data = .error e →
        ((∃ cause, Value.ofDatum data = .error cause) ∧ e.location = none) ∨
        ((∃ root, Value.ofDatum data = .ok root) ∧
          ∃ line, e.location = some ⟨Template.unnamed, line⟩)) ∧
    (∃ blocks, Template.compile letter.source = .ok blocks ∧
      (∀ e, render blocks data = .error e → e.source = none) ∧
      (env.markdown = Markdown.toHtml →
        render blocks data = (env.renderText letter.source data).mapError Error.plain)) ∧
    (∀ other letter', env.get other = .ok letter' → letter'.source = letter.source →
      letter'.blocks = letter.blocks ∧
        env.render letter' data = (env.render letter data).mapError (Error.inTemplate other)) ∧
    ∀ source other other',
      Template.parse source other' =
        (Template.parse source other).mapError (Error.inTemplate other') := by
  obtain ⟨history, h⟩ := Session.exists_history henv
  obtain ⟨-, rfl, hparse⟩ := (h.get_eq_ok_iff name letter).1 hget
  have htext : env.renderText letter.source data =
      env.render { letter with name := Template.unnamed } data := renderText_of_parse hparse data
  refine ⟨⟨?_, ?_⟩, ⟨letter.blocks, Template.parse_of_parse hparse, ?_, ?_⟩, ?_,
    Template.parse_inTemplate⟩
  · rw [htext, ← render_inTemplate]
  · intro e he
    obtain ⟨e₀, rfl, he₀⟩ := exists_of_renderText he
    rw [location_report]
    cases he₀ with
    | data hdata => exact Or.inl ⟨⟨_, hdata⟩, rfl⟩
    | template hdata comesFrom => exact Or.inr ⟨⟨_, hdata⟩, comesFrom.exists_line⟩
  · intro e he
    exact (arises_of_render he).source_eq
  · intro hmarkdown
    rw [htext, plain_render, plain_render_tree _ rfl hmarkdown]
  · -- the letter of another name with the same source
    intro other letter' hget' hsource
    obtain ⟨-, rfl, hparse'⟩ := (h.get_eq_ok_iff other letter').1 hget'
    rw [hsource] at hparse'
    have hblocks : letter'.blocks = letter.blocks :=
      Except.ok.inj (hparse'.symm.trans (Template.parse_of_parse hparse))
    refine ⟨hblocks, ?_⟩
    rw [← render_inTemplate, ← hblocks, ← hsource]

/-- A letter whose only field has no value: each way to fill it in fails in the first line, the first
in the template `letter`, the others in one without a name, and the last one without the source. -/
theorem routes_agree_field :
    let letter : Letter := ⟨"letter", "{{ name }}", [.field "name" ⟨.start, ⟨1, 10, 10⟩⟩]⟩
    ∃ env ∈ (Session.initial.behind [.add letter.name letter.source]).environments,
      env.get "letter" = .ok letter ∧
      env.render letter (.record []) = .error
        { cause := .valueMissing "name", location := some ⟨"letter", 1⟩,
          source := some letter.source } ∧
      env.renderText letter.source (.record []) = .error
        { cause := .valueMissing "name", location := some ⟨"<string>", 1⟩,
          source := some letter.source } ∧
      render letter.blocks (.record []) = .error
        { cause := .valueMissing "name", location := some ⟨"<string>", 1⟩ } := by
  have hfield : Template.parse "{{ name }}" "letter" = .ok [.field "name" ⟨.start, ⟨1, 10, 10⟩⟩] :=
    rfl
  intro letter
  have hparse : Template.parse letter.source letter.name = .ok letter.blocks := hfield
  have henv : { letters := [("letter", letter)] } ∈
      (Session.initial.behind [.add letter.name letter.source]).environments := by
    rw [Session.behind, Session.step, Environment.add_of_parse hparse]
    exact List.mem_singleton_self _
  obtain ⟨⟨hname, -⟩, ⟨blocks, hcompile, -, htree⟩, -⟩ :=
    routes_agree _ _ henv "letter" letter rfl (.record [])
  obtain rfl : letter.blocks = blocks :=
    Except.ok.inj ((Template.parse_of_parse hparse).symm.trans hcompile)
  have htext : Environment.renderText { letters := [("letter", letter)] } letter.source
      (.record []) = .error
        { cause := .valueMissing "name", location := some ⟨"<string>", 1⟩,
          source := some letter.source } := by
    rw [Environment.renderText_of_parse hparse]
    rfl
  refine ⟨_, henv, rfl, ?_, htext, ?_⟩
  · rw [hname, htext]
    rfl
  · rw [htree rfl, htext]
    rfl

end FormLetter

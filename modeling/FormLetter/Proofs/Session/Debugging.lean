/-
# What debug mode adds

Debug mode makes a difference to the sources that errors carry, and to nothing else.  Two runs that
have the same steps, but for those about the debug flag, give the same answers without these sources
(`plainRun_filter`): the environments behind them are the same with debug mode off, and with debug
mode off the answer to a step is the answer without the source (`plain_step_fst`).  Which source an
error carries is told by the flag of the current environment and the template that the step works on
(`source_of_step`); it does not matter how the flag was set before.
-/
import FormLetter.Proofs.Environment
import FormLetter.Proofs.Session.Steps

namespace FormLetter

/-- The flag is all that `plain` takes from an environment. -/
lemma Environment.eq_of_plain_eq {env env' : Environment} (h : env.plain = env'.plain)
    (hdebug : env.debug = env'.debug) : env = env' := by
  obtain ⟨letters, markdown, debug⟩ := env
  obtain ⟨letters', markdown', debug'⟩ := env'
  obtain ⟨rfl, rfl, -⟩ := Environment.mk.inj h
  obtain rfl : debug = debug' := hdebug
  rfl

/-- A step makes the same of an environment whether its debug mode is on or off, but for the flag. -/
lemma Environment.plain_behind (step : Session.Step) (env : Environment) :
    (env.plain.behind step).plain = (env.behind step).plain := by
  cases step with
  | add name source =>
    rw [behind, behind]
    cases hparse : Template.parse source name with
    | ok blocks =>
      rw [add_of_parse hparse, add_of_parse hparse]
      rfl
    | error e =>
      rw [add_of_parse_error hparse, add_of_parse_error hparse]
      rfl
  | _ => rfl

/-- The letter of a name, filled in. -/
lemma Environment.plain_fillIn (env : Environment) (name : String) (data : Datum) :
    (env.get name >>= (env.render · data)).mapError Error.plain =
      env.plain.get name >>= (env.plain.render · data) := by
  rw [← plain_get]
  cases env.get name with
  | ok letter => exact plain_render letter data
  | error e => rfl

namespace Session

/-- The step sets the debug flag or asks for it. -/
def Step.isDebug : Step → Bool
  | .setDebug _ => true
  | .debug => true
  | _ => false

/-- The answer, without the source of a template if it is an error. -/
def Answer.plain : Answer → Answer
  | .failed e => .failed e.plain
  | a => a

/-- The answers to all steps but those about the debug flag, without the sources of templates. -/
def plainRun (s : Session) (steps : List Step) : List Answer :=
  ((steps.zip (s.run steps)).filter fun row => !row.1.isDebug).map fun row => row.2.plain

/-- The source of the template that a step works on. -/
def template? (s : Session) : Step → Option String
  | .add _ source => some source
  | .render name _ => (s.environment.letters.get? name).map Letter.source
  | .renderText source _ => some source
  | _ => none

/-- The environments with debug mode off. -/
def silent (s : Session) : Ledger Environment := s.ledger.map Environment.plain

variable {s s' : Session} {step : Step}

lemma plainRun_cons (s : Session) (step : Step) (steps : List Step) :
    s.plainRun (step :: steps) =
      if step.isDebug then (s.step step).2.plainRun steps
      else (s.step step).1.plain :: (s.step step).2.plainRun steps := by
  rw [plainRun, run, List.zip_cons_cons, List.filter_cons]
  cases step.isDebug <;> rfl

/-! ### Answers with debug mode off -/

@[simp] lemma environment_update (s : Session) (env : Environment) :
    (s.update env).environment = env := by
  simp [update, environment]

lemma plain_answer_letter (x : Except Error Letter) :
    (answer .letter x).plain = answer .letter (x.mapError Error.plain) := by
  cases x <;> rfl

lemma plain_answer_text (x : Except Error String) :
    (answer .text x).plain = answer .text (x.mapError Error.plain) := by
  cases x <;> rfl

/-- The answer to a step with debug mode off. -/
theorem plain_step_fst (s : Session) (hstep : step.isDebug = false) :
    (s.step step).1.plain = ((s.update s.environment.plain).step step).1 := by
  cases step with
  | add name source =>
    simp only [Session.step, environment_update]
    cases hparse : Template.parse source name with
    | ok blocks =>
      rw [Environment.add_of_parse hparse, Environment.add_of_parse hparse]
      rfl
    | error e =>
      rw [Environment.add_of_parse_error hparse, Environment.add_of_parse_error hparse]
      exact congrArg Answer.failed
        (Environment.plain_report source (Template.comesFrom_parse hparse).source_eq)
  | get name =>
    rw [Session.step, Session.step, plain_answer_letter, Environment.plain_get, environment_update]
  | render name data =>
    rw [Session.step, Session.step, plain_answer_text, Environment.plain_fillIn, environment_update]
  | renderText source data =>
    rw [Session.step, Session.step, plain_answer_text, Environment.plain_renderText,
      environment_update]
  | clone => simp [Session.step, clone, update, Answer.plain]
  | switch index =>
    by_cases h : index < s.environments.length <;>
      simp [Session.step, switch, update, Answer.plain, h]
  | summary => simp [Session.step, Answer.plain, Environment.structureText, Environment.plain]
  | setDebug on => cases hstep
  | debug => cases hstep
  | remove name => rfl
  | setMarkdown markdown => rfl
  | reset => rfl

/-- What the answer to a step depends on. -/
lemma step_fst_congr (henvironment : s.environment = s'.environment)
    (hlength : s.environments.length = s'.environments.length) (hcurrent : s.current = s'.current)
    (step : Step) : (s.step step).1 = (s'.step step).1 := by
  cases step with
  | add name source =>
    rw [Session.step, Session.step, henvironment]
    cases s'.environment.add name source <;> rfl
  | clone => exact congrArg Answer.index hlength
  | switch index =>
    by_cases h : index < s'.environments.length <;>
      simp [Session.step, switch, hlength, h, hcurrent]
  | _ => simp [Session.step, henvironment]

/-! ### Environments with debug mode off -/

lemma eq_of_silent_eq (h : s.silent = s'.silent) :
    s.environment.plain = s'.environment.plain ∧
      s.environments.length = s'.environments.length ∧ s.current = s'.current := by
  obtain ⟨hrows, hcurrent⟩ := Ledger.mk.inj h
  have hcurrent' : s.current = s'.current := hcurrent
  refine ⟨?_, by simpa [ledger] using congrArg List.length hrows, hcurrent'⟩
  have hrow := congrArg (·[s.current]?) hrows
  simp only [ledger, List.getElem?_map] at hrow
  rw [getElem?_current, hcurrent', getElem?_current] at hrow
  exact Option.some.inj hrow

/-- Sessions that are the same with debug mode off answer the same, but for the sources. -/
theorem plain_step_fst_congr (h : s.silent = s'.silent) (hstep : step.isDebug = false) :
    (s.step step).1.plain = (s'.step step).1.plain := by
  obtain ⟨hplain, hlength, hcurrent⟩ := eq_of_silent_eq h
  rw [plain_step_fst s hstep, plain_step_fst s' hstep]
  refine step_fst_congr ?_ ?_ ?_ step
  · rw [environment_update, environment_update, hplain]
  · simpa [update] using hlength
  · exact hcurrent

/-- If their current environments have the same flag as well, they answer the same. -/
theorem step_fst_eq_of_debug_eq (h : s.silent = s'.silent)
    (hdebug : s.environment.debug = s'.environment.debug) (step : Step) :
    (s.step step).1 = (s'.step step).1 := by
  obtain ⟨hplain, hlength, hcurrent⟩ := eq_of_silent_eq h
  exact step_fst_congr (Environment.eq_of_plain_eq hplain hdebug) hlength hcurrent step

theorem silent_step_congr (h : s.silent = s'.silent) (step : Step) :
    (s.step step).2.silent = (s'.step step).2.silent := by
  rw [silent, silent, Ledger.map_eq_map_iff] at h ⊢
  rw [ledger_step, ledger_step]
  refine h.take fun env env' hplain => ?_
  rw [← Environment.plain_behind, hplain, Environment.plain_behind]

lemma silent_update {env : Environment} (h : env.plain = s.environment.plain) :
    (s.update env).silent = s.silent := by
  calc (s.update env).silent
      = (s.update s.environment).silent := by
        simp only [silent, ledger, Ledger.map, update, List.map_set, h]
    _ = s.silent := by rw [update_environment]

lemma silent_step_of_isDebug (hstep : step.isDebug = true) : (s.step step).2.silent = s.silent := by
  cases step with
  | setDebug on => exact silent_update rfl
  | debug => rfl
  | _ => cases hstep

/-! ### Runs -/

/-- The steps about the debug flag make no difference. -/
theorem plainRun_filter (h : s.silent = s'.silent) (steps : List Step) :
    s.plainRun steps = s'.plainRun (steps.filter fun step => !step.isDebug) ∧
      (s.behind steps).silent = (s'.behind (steps.filter fun step => !step.isDebug)).silent := by
  -- the environments stay the same with debug mode off, also where only one run takes the step
  induction steps generalizing s s' with
  | nil => exact ⟨rfl, h⟩
  | cons step steps ih =>
    rw [plainRun_cons, behind, List.filter_cons]
    cases hstep : step.isDebug with
    | true => exact ih ((silent_step_of_isDebug hstep).trans h)
    | false =>
      obtain ⟨hrun, hsilent⟩ := ih (silent_step_congr h step)
      refine ⟨?_, hsilent⟩
      simp only [Bool.not_false, if_true, plainRun_cons, hstep, hrun, plain_step_fst_congr h hstep]

/-! ### The sources of errors -/

lemma eq_error_of_answer {α : Type} {ok : α → Answer} (hok : ∀ a e, ok a ≠ .failed e)
    {x : Except Error α} {e : Error} (h : answer ok x = .failed e) : x = .error e := by
  cases x with
  | ok a => exact absurd h (hok a e)
  | error e' => exact congrArg Except.error (Answer.failed.inj h)

/-- An error of a kind that comes up in templates, as an environment reports it. -/
lemma source_of_report {env : Environment} {source : String} {e : Error} {kinds : List ErrorKind}
    (hsource : e.source = none) (hkind : e.kind ∈ kinds) (hkinds : .templateNotFound ∉ kinds) :
    (env.report source e).source = (if env.debug then some source else none) ∧
      ((env.report source e).kind = .templateNotFound → (env.report source e).source = none) := by
  refine ⟨Environment.source_report source hsource, fun hreport => ?_⟩
  rw [Environment.kind_report] at hreport
  exact absurd (hreport ▸ hkind) hkinds

/-- With debug mode on an error carries the source of the template that the step works on, with debug
mode off it carries none. -/
theorem source_of_step {e : Error} (h : (s.step step).1 = .failed e) :
    e.source = (if s.environment.debug then s.template? step else none) ∧
      (e.kind = .templateNotFound → e.source = none) := by
  cases step with
  | add name source =>
    rw [Session.step] at h
    cases hadd : s.environment.add name source with
    | ok env => simp [hadd] at h
    | error e' =>
      rw [hadd] at h
      obtain rfl := Answer.failed.inj h
      obtain ⟨e₀, rfl, comesFrom⟩ := Environment.exists_of_add hadd
      exact source_of_report comesFrom.source_eq comesFrom.kind_mem (by decide)
  | get name =>
    obtain ⟨-, rfl⟩ := Environment.get_eq_error_iff.1 (eq_error_of_answer (by simp) h)
    simp [template?]
  | render name data =>
    have hrender := eq_error_of_answer (by simp) h
    cases hget : s.environment.get name with
    | error e' =>
      obtain ⟨hnone, rfl⟩ := Environment.get_eq_error_iff.1 hget
      rw [hget] at hrender
      obtain rfl := Except.error.inj hrender
      simp [template?, hnone]
    | ok letter =>
      rw [hget] at hrender
      obtain ⟨e₀, rfl, arises⟩ := Environment.exists_of_render hrender
      rw [template?, Environment.get_eq_ok_iff.1 hget]
      exact source_of_report arises.source_eq arises.kind_mem (by decide)
  | renderText source data =>
    obtain ⟨e₀, rfl, arises⟩ :=
      Environment.exists_of_renderText (eq_error_of_answer (by simp) h)
    exact source_of_report arises.source_eq arises.kind_mem (by decide)
  | _ => cases h

/-! ### Two runs -/

lemma isDebug_eq_false_of_step {a : Answer} (h : (s.step step).1 = a) (hflag : ∀ on, a ≠ .flag on) :
    step.isDebug = false := by
  cases step with
  | setDebug on => exact absurd h.symm (hflag on)
  | debug => exact absurd h.symm (hflag _)
  | _ => rfl

lemma Answer.eq_text_of_plain {a : Answer} {text : String} (h : a.plain = .text text) :
    a = .text text := by
  cases a with
  | failed e => cases h
  | _ => exact h

lemma Answer.exists_of_plain {a : Answer} {e : Error} (h : a.plain = .failed e) :
    ∃ e', a = .failed e' ∧ e'.plain = e := by
  cases a with
  | failed e' => exact ⟨e', rfl, Answer.failed.inj h⟩
  | _ => cases h

/-- **Debug mode.**  In two runs that differ in the steps about the debug flag alone, all other steps
have the same answers, if the sources of templates are left out: what is filled in is the same text,
and what fails does so with the same kind, detail, place and message.  If the flag of the current
environment is the same behind both runs, so is the whole answer to a step, however the flag was set
before.  An error carries a source exactly if that flag is set and the step works on a template; then
it is the source of that template.  An error that there is no letter of a name never carries one, nor
does an error of a template that is parsed or filled in apart from any environment. -/
theorem debug_adds_source (s : Session) (steps steps' : List Step)
    (h : (steps.filter fun step => !step.isDebug) = steps'.filter fun step => !step.isDebug) :
    s.plainRun steps = s.plainRun steps' ∧
    (∀ step : Step,
      ((s.behind steps).environment.debug = (s.behind steps').environment.debug →
        ((s.behind steps).step step).1 = ((s.behind steps').step step).1) ∧
      (∀ text, ((s.behind steps).step step).1 = .text text →
        ((s.behind steps').step step).1 = .text text) ∧
      ∀ e, ((s.behind steps).step step).1 = .failed e →
        (∃ e', ((s.behind steps').step step).1 = .failed e' ∧ e'.kind = e.kind ∧
          e'.detail = e.detail ∧ e'.location = e.location ∧ e'.message = e.message) ∧
        e.source =
          (if (s.behind steps).environment.debug then (s.behind steps).template? step else none) ∧
        (e.kind = .templateNotFound → e.source = none)) ∧
    (∀ source e, Template.compile source = .error e → e.source = none) ∧
    ∀ blocks data e, render blocks data = .error e → e.source = none := by
  obtain ⟨hrun, hsilent⟩ := plainRun_filter (s := s) rfl steps
  obtain ⟨hrun', hsilent'⟩ := plainRun_filter (s := s) rfl steps'
  rw [h] at hrun hsilent
  have hbehind : (s.behind steps).silent = (s.behind steps').silent := hsilent.trans hsilent'.symm
  refine ⟨hrun.trans hrun'.symm, ?_, ?_, ?_⟩
  · intro step
    refine ⟨fun hdebug => step_fst_eq_of_debug_eq hbehind hdebug step, ?_, ?_⟩
    · intro text htext
      have hplain := plain_step_fst_congr hbehind (isDebug_eq_false_of_step htext (by simp))
      rw [htext] at hplain
      exact Answer.eq_text_of_plain hplain.symm
    · intro e he
      have hplain := plain_step_fst_congr hbehind (isDebug_eq_false_of_step he (by simp))
      rw [he] at hplain
      obtain ⟨e', he', heq⟩ := Answer.exists_of_plain hplain.symm
      obtain ⟨hcause, hlocation, -⟩ := Error.mk.inj heq
      refine ⟨⟨e', he', ?_⟩, source_of_step he⟩
      simp only [Error.kind, Error.detail, Error.message, hcause, hlocation, and_self]
  · intro source e he
    exact (Template.comesFrom_parse he).source_eq
  · intro blocks data e he
    exact (Environment.arises_of_render he).source_eq

/-- A letter whose only field has no value is added with debug mode off, or with debug mode on.  It
cannot be filled in either way, with the same message, and the error carries the source if debug mode
is on by then. -/
theorem debug_adds_source_field :
    let add : Step := .add "letter" "{{ name }}"
    let fillIn : Step := .render "letter" (.record [])
    let on : List Step := [.setDebug false, add, .setDebug true]
    let off : List Step := [add, .debug, .setDebug false]
    initial.plainRun on = initial.plainRun off ∧
    ∃ e e' : Error, ((initial.behind on).step fillIn).1 = .failed e ∧
      ((initial.behind off).step fillIn).1 = .failed e' ∧
      e.message = "missing parameter: parameter `name` is missing (in letter:1)" ∧
      e'.message = e.message ∧ e.source = some "{{ name }}" ∧ e'.source = none := by
  intro add fillIn on off
  have hparse : Template.parse "{{ name }}" "letter" =
      .ok [.field "name" ⟨.start, ⟨1, 10, 10⟩⟩] := rfl
  have hon : (initial.behind on).environment = { letters :=
      [("letter", ⟨"letter", "{{ name }}", [.field "name" ⟨.start, ⟨1, 10, 10⟩⟩]⟩)] } := by
    simp only [on, add, behind, Session.step]
    rw [Environment.add_of_parse hparse]
    rfl
  have hoff : (initial.behind off).environment.debug = false := by
    simp only [off, add, behind, Session.step, environment_update]
  obtain ⟨hrun, hsteps, -⟩ := debug_adds_source initial on off rfl
  have hanswer : ((initial.behind on).step fillIn).1 = .failed
      { cause := .valueMissing "name", location := some ⟨"letter", 1⟩,
        source := some "{{ name }}" } := by
    simp only [fillIn, Session.step, hon]
    rfl
  obtain ⟨⟨e', he', -, -, -, hmessage⟩, -⟩ := (hsteps fillIn).2.2 _ hanswer
  have hsource := (((debug_adds_source initial off on rfl).2.1 fillIn).2.2 e' he').2.1
  rw [hoff] at hsource
  exact ⟨hrun, _, e', hanswer, he', rfl, hmessage, rfl, hsource⟩

end Session
end FormLetter

/-
# What an environment keeps

Whatever steps were taken in whichever order on several environments, an environment depends only on
its own history: the steps that it, and the environments it was copied from, were current for since
they were set up.  There is a letter of a name if the last step of the history that settled the name
added it; this is the letter of the template that was added then.  Markdown and the debug flag are
as they were set last, and markdown is read that way for all letters, those that were added before
included (`registry`).
-/
import FormLetter.Proofs.Environment
import FormLetter.Proofs.Session.Steps

namespace FormLetter

namespace Session

/-- The step settles whether there is a letter of the name: it adds a template with a tree under the
name, or it removes the name. -/
def Step.settles (name : String) : Step → Bool
  | .add other source => other = name && (Template.parse source other).isOk
  | .remove other => other = name
  | _ => false

/-- The letter that the step adds. -/
def Step.letter? : Step → Option Letter
  | .add name source => (Letter.ofSource name source).toOption
  | _ => none

/-- How markdown is read from the step on. -/
def Step.markdown? : Step → Option (String → String)
  | .setMarkdown markdown => some markdown
  | _ => none

/-- The debug flag that the step sets. -/
def Step.debug? : Step → Option Bool
  | .setDebug on => some on
  | _ => none

/-- A history with one more step.  To start over with an environment is to forget its history. -/
def note (step : Step) (history : List Step) : List Step :=
  match step with
  | .reset => []
  | step => step :: history

/-- The history of each environment, last step first. -/
def histories (steps : List Step) : Ledger (List Step) := steps.foldl (Ledger.take note) ⟨[[]], 0⟩

/-- The last step that settled whether there is a letter of the name. -/
def latest (name : String) (history : List Step) : Option Step := history.find? (·.settles name)

/-- How markdown is read after the steps. -/
def markdownBehind (history : List Step) : String → String :=
  (history.findSome? Step.markdown?).getD Markdown.toHtml

/-- The environment is what its history says. -/
structure HasHistory (env : Environment) (history : List Step) : Prop where
  letters_eq : ∀ name, env.letters.get? name = (latest name history).bind Step.letter?
  markdown_eq : env.markdown = markdownBehind history
  debug_eq : env.debug = (history.findSome? Step.debug?).getD true

namespace HasHistory

variable {env : Environment} {history : List Step}

lemma fresh : HasHistory {} [] := ⟨fun _ => rfl, rfl, rfl⟩

lemma latest_cons (name : String) (step : Step) (history : List Step) :
    latest name (step :: history) =
      if step.settles name then some step else latest name history := by
  rw [latest, List.find?_cons]
  cases step.settles name <;> rfl

lemma add (h : HasHistory env history) (name source : String) :
    HasHistory (env.behind (.add name source)) (.add name source :: history) := by
  cases hparse : Template.parse source name with
  | ok blocks =>
    rw [Environment.behind, Environment.add_of_parse hparse]
    refine ⟨fun other => ?_, h.markdown_eq, h.debug_eq⟩
    rw [latest_cons, Dictionary.get?_insert]
    by_cases hname : name = other
    · simp [hname, Step.settles, Step.letter?, Letter.ofSource, hname ▸ hparse, Except.isOk,
        Except.toBool, Except.map, Except.toOption]
    · simp [hname, Step.settles, h.letters_eq]
  | error e =>
    rw [Environment.behind, Environment.add_of_parse_error hparse]
    refine ⟨fun other => ?_, h.markdown_eq, h.debug_eq⟩
    rw [latest_cons, h.letters_eq]
    simp [Step.settles, hparse, Except.isOk, Except.toBool]

lemma remove (h : HasHistory env history) (name : String) :
    HasHistory (env.remove name) (.remove name :: history) := by
  refine ⟨fun other => ?_, h.markdown_eq, h.debug_eq⟩
  rw [latest_cons, Environment.remove, Dictionary.get?_erase]
  by_cases hname : name = other
  · simp [hname, Step.settles, Step.letter?]
  · simp [hname, Step.settles, h.letters_eq]

/-- A step keeps the environment and its history together. -/
theorem behind (h : HasHistory env history) (step : Step) :
    HasHistory (env.behind step) (note step history) := by
  cases step with
  | add name source => exact h.add name source
  | remove name => exact h.remove name
  | setDebug on => exact ⟨h.letters_eq, h.markdown_eq, rfl⟩
  | setMarkdown markdown => exact ⟨h.letters_eq, rfl, h.debug_eq⟩
  | reset => exact fresh
  | _ => exact ⟨h.letters_eq, h.markdown_eq, h.debug_eq⟩

lemma letter?_eq_some_iff {name source : String} {letter : Letter} :
    (Step.add name source).letter? = some letter ↔
      letter.source = source ∧ letter.name = name ∧
        Template.parse source name = .ok letter.blocks := by
  obtain ⟨name', source', blocks'⟩ := letter
  rw [Step.letter?, Letter.ofSource]
  cases Template.parse source name with
  | error e => simp [Except.map, Except.toOption]
  | ok blocks => simp [Except.map, Except.toOption, eq_comm, and_left_comm]

/-- A step that settles the name and leaves a letter behind has added it under that name. -/
lemma exists_add {name : String} {step : Step} {letter : Letter}
    (hsettles : step.settles name = true) (hletter : step.letter? = some letter) :
    step = .add name letter.source := by
  cases step with
  | add other source =>
    obtain rfl := (letter?_eq_some_iff.1 hletter).1
    obtain rfl : other = name := by
      rw [Step.settles, Bool.and_eq_true, decide_eq_true_eq] at hsettles
      exact hsettles.1
    rfl
  | _ => simp [Step.letter?] at hletter

/-- The letters are those that were added last. -/
theorem get_eq_ok_iff (h : HasHistory env history) (name : String) (letter : Letter) :
    env.get name = .ok letter ↔
      latest name history = some (.add name letter.source) ∧ letter.name = name ∧
        Template.parse letter.source name = .ok letter.blocks := by
  rw [Environment.get_eq_ok_iff, h.letters_eq, Option.bind_eq_some_iff]
  constructor
  · rintro ⟨step, hlatest, hletter⟩
    obtain rfl := exists_add (List.find?_some hlatest) hletter
    exact ⟨hlatest, (letter?_eq_some_iff.1 hletter).2⟩
  · rintro ⟨hlatest, hname, hparse⟩
    exact ⟨_, hlatest, letter?_eq_some_iff.2 ⟨rfl, hname, hparse⟩⟩

/-- There is a letter if the last step that settled its name added it. -/
theorem exists_letter_iff (h : HasHistory env history) (name : String) :
    (∃ letter, env.get name = .ok letter) ↔
      ∃ source, latest name history = some (.add name source) := by
  constructor
  · rintro ⟨letter, hletter⟩
    exact ⟨letter.source, ((h.get_eq_ok_iff name letter).1 hletter).1⟩
  · rintro ⟨source, hlatest⟩
    have hsettles : (Step.add name source).settles name = true := List.find?_some hlatest
    cases hparse : Template.parse source name with
    | ok blocks => exact ⟨⟨name, source, blocks⟩, (h.get_eq_ok_iff name _).2 ⟨hlatest, rfl, hparse⟩⟩
    | error e => simp [Step.settles, hparse, Except.isOk, Except.toBool] at hsettles

end HasHistory

/-- Along a run the environments and their histories stay together. -/
theorem hasHistory_behind (steps : List Step) :
    Ledger.Related HasHistory (initial.behind steps).ledger (histories steps) := by
  have hrun : ∀ (s : Session) (l : Ledger (List Step)), Ledger.Related HasHistory s.ledger l →
      Ledger.Related HasHistory (s.behind steps).ledger (steps.foldl (Ledger.take note) l) := by
    induction steps with
    | nil => exact fun s l h => h
    | cons step steps ih =>
      refine fun s l h => ih _ _ ?_
      rw [ledger_step]
      exact h.take fun env history henv => henv.behind step
  exact hrun initial _ ⟨.cons .fresh .nil, rfl⟩

lemma forall₂_history (steps : List Step) (i : Nat) :
    List.Forall₂ HasHistory (initial.behind steps).environments[i]?.toList
      (histories steps).rows[i]?.toList :=
  Ledger.forall₂_getElem? (hasHistory_behind steps).rows i

lemma exists_history {steps : List Step} {env : Environment}
    (henv : env ∈ (initial.behind steps).environments) : ∃ history, HasHistory env history := by
  obtain ⟨i, hi⟩ := List.mem_iff_getElem?.1 henv
  have h := forall₂_history steps i
  rw [hi] at h
  obtain ⟨history, -, hhistory, -, -⟩ := List.forall₂_cons_left_iff.1 h
  exact ⟨history, hhistory⟩

/-- **Registry.**  Behind any steps each environment is what its own history says.  It has a letter
of a name exactly if the last step that settled the name added it; this is the letter of that name, of
the source that was added, with the tree of that source.  Markdown is read as it was set last,
whenever the letter was added.  A step changes no environment but the current one, and to add a
template without a tree changes nothing at all. -/
theorem registry (steps : List Step) :
    let s := initial.behind steps
    (s.current = (histories steps).current ∧ s.environments.length = (histories steps).rows.length ∧
      ∀ step, initial.run (steps ++ [step]) = initial.run steps ++ [(s.step step).1]) ∧
    (∀ (i : Nat) (env : Environment) (history : List Step),
      s.environments[i]? = some env → (histories steps).rows[i]? = some history →
      (∀ name, (∃ letter, env.get name = .ok letter) ↔
        ∃ source, latest name history = some (.add name source)) ∧
      (∀ name letter, env.get name = .ok letter →
        latest name history = some (.add name letter.source) ∧ letter.name = name ∧
          Template.parse letter.source name = .ok letter.blocks) ∧
      (∀ name e, env.get name = .error e → e = { cause := .templateMissing name }) ∧
      env.markdown = markdownBehind history ∧
      env.debug = (history.findSome? Step.debug?).getD true ∧
      ∀ name letter data, env.get name = .ok letter →
        env.render letter data =
          (do
            let root ← Value.ofData data
            Render.letter { root, markdown := markdownBehind history, name } letter.blocks).mapError
            (env.report letter.source)) ∧
    (∀ (step : Step) (i : Nat), i < s.environments.length → i ≠ s.current →
      (s.step step).2.environments[i]? = s.environments[i]?) ∧
    ∀ name source,
      (∀ blocks, Template.parse source name = .ok blocks → (s.step (.add name source)).1 = .done) ∧
      ∀ e, Template.parse source name = .error e →
        s.step (.add name source) = (.failed (s.environment.report source e), s) := by
  intro s
  have hrelated : Ledger.Related HasHistory s.ledger (histories steps) := hasHistory_behind steps
  refine ⟨⟨hrelated.current_eq, hrelated.rows.length_eq, ?_⟩, ?_, ?_, ?_⟩
  · intro step
    rw [run_append]
    rfl
  · intro i env history henv hhistory
    have h : HasHistory env history := by
      simpa [s, henv, hhistory] using forall₂_history steps i
    refine ⟨h.exists_letter_iff, ?_, ?_, h.markdown_eq, h.debug_eq, ?_⟩
    · intro name letter hget
      exact (h.get_eq_ok_iff name letter).1 hget
    · intro name e hget
      exact (Environment.get_eq_error_iff.1 hget).2
    · intro name letter data hget
      obtain ⟨-, hname, -⟩ := (h.get_eq_ok_iff name letter).1 hget
      rw [Environment.render, hname, ← h.markdown_eq]
      rfl
  · intro step i hi hne
    have hrows := Ledger.getElem?_take Environment.behind s.ledger step hi hne
    rwa [← ledger_step] at hrows
  · intro name source
    constructor
    · intro blocks hparse
      rw [Session.step, Environment.add_of_parse hparse]
    · intro e hparse
      rw [Session.step, Environment.add_of_parse_error hparse]

/-- A letter is added and the environment copied.  In the copy a template without a tree is refused
under the same name, and then markdown is set; in the first environment the name is removed.  The
copy still has the letter, and fills it in with the markdown that was set after it was added. -/
theorem registry_copy :
    let steps : List Step := [.add "a" "{{{ n }}}", .clone, .add "a" "\x7b\x7b n",
      .setMarkdown (fun text => text ++ "!"), .switch 0, .remove "a"]
    let s := initial.behind steps
    (∃ env, s.environments[0]? = some env ∧
      env.get "a" = .error { cause := .templateMissing "a" }) ∧
    (∃ copy letter, s.environments[1]? = some copy ∧ copy.get "a" = .ok letter ∧
      letter.source = "{{{ n }}}" ∧ copy.render letter (.record [("n", .text "hi")]) = .ok "hi!") ∧
    (s.step (.add "a" "\x7b\x7b n")).1 = .failed
      { cause := .unclosedTag .plain, location := some ⟨"a", 1⟩, source := some "\x7b\x7b n" } := by
  intro steps s
  obtain ⟨-, henvironments, -, hadd⟩ := registry steps
  have hbase := henvironments 0 _ _ rfl rfl
  have hcopy := henvironments 1 _ _ rfl rfl
  refine ⟨⟨_, rfl, ?_⟩, ?_, ?_⟩
  · -- the last step of its history that settled the name has removed it
    have hnone : ¬ ∃ source, latest "a" [.remove "a", .add "a" "{{{ n }}}"] =
        some (.add "a" source) := by
      rintro ⟨source, h⟩
      cases h
    cases hget : Environment.get _ "a" with
    | ok letter => exact absurd ((hbase.1 "a").1 ⟨letter, hget⟩) hnone
    | error e => rw [hbase.2.2.1 "a" e hget]
  · obtain ⟨letter, hget⟩ := (hcopy.1 "a").2 ⟨"{{{ n }}}", rfl⟩
    obtain ⟨hlatest, -, hparse⟩ := hcopy.2.1 "a" letter hget
    have hadded : some (Step.add "a" "{{{ n }}}") = some (.add "a" letter.source) := hlatest
    have hsource : letter.source = "{{{ n }}}" := (Step.add.inj (Option.some.inj hadded)).2.symm
    rw [hsource] at hparse
    have hblocks : letter.blocks = [.markdown "n" ⟨.start, ⟨1, 9, 9⟩⟩] :=
      (Except.ok.inj hparse).symm
    refine ⟨_, letter, rfl, hget, hsource, ?_⟩
    rw [hcopy.2.2.2.2.2 "a" letter _ hget, hblocks]
    rfl
  · rw [(hadd "a" "\x7b\x7b n").2 _ rfl]
    rfl

end Session
end FormLetter

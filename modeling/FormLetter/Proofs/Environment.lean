/-
# What an environment answers

Each operation of an environment in terms of its parts: what a template that is added becomes, which
letter is found, and with which errors it can fail to fill one in.  An error comes up in the data
(`Arises.data`) or in the template (`Arises.template`), and is reported with the source of the
template or without it.  With debug mode off, an environment gives the same results without the
sources (`plain_get`, `plain_render`, `plain_renderText`).
-/
import FormLetter.Environment
import FormLetter.Proofs.Faults
import FormLetter.Proofs.Value.Ordered

namespace FormLetter

/-- The error without the source of its template. -/
def Error.plain (e : Error) : Error := { e with source := none }

/-- The environment with debug mode off. -/
def Environment.plain (env : Environment) : Environment := { env with debug := false }

/-- An error that comes up when a template is filled in with data: either the data has no value, and
then the error has no place, or the error comes from the template. -/
inductive Error.Arises (data : Datum) (name : String) (kinds : List ErrorKind) : Error → Prop
  | data {cause : Cause} (h : Value.ofDatum data = .error cause) : Arises data name kinds { cause }
  | template {root : Value} {e : Error} (h : Value.ofDatum data = .ok root)
      (comesFrom : e.ComesFrom name kinds) : Arises data name kinds e

namespace Error.Arises

variable {data : Datum} {name : String} {kinds : List ErrorKind} {e : Error}

lemma source_eq (h : e.Arises data name kinds) : e.source = none := by
  cases h with
  | data h => rfl
  | template h comesFrom => exact comesFrom.source_eq

lemma kind_mem (h : e.Arises data name kinds) : e.kind ∈ .badData :: kinds := by
  cases h with
  | data h => exact List.mem_cons.2 (Or.inl (Value.kind_of_ofDatum h))
  | template h comesFrom => exact List.mem_cons_of_mem _ comesFrom.kind_mem

end Error.Arises

namespace Environment

variable {env : Environment} {name source : String} {data : Datum} {e : Error}

/-! ### The letters -/

lemma add_of_parse {blocks : List Template.Block} (h : Template.parse source name = .ok blocks) :
    env.add name source =
      .ok { env with letters := env.letters.insert name ⟨name, source, blocks⟩ } := by
  rw [add, Letter.ofSource, h]
  rfl

lemma add_of_parse_error (h : Template.parse source name = .error e) :
    env.add name source = .error (env.report source e) := by
  rw [add, Letter.ofSource, h]
  rfl

lemma ofSource_eq_ok_iff {letter : Letter} :
    Letter.ofSource name source = .ok letter ↔
      ∃ blocks, Template.parse source name = .ok blocks ∧ letter = ⟨name, source, blocks⟩ := by
  rw [Letter.ofSource]
  cases Template.parse source name with
  | error e => simp [Except.map]
  | ok blocks => simp [Except.map, eq_comm]

lemma get_eq_ok_iff {letter : Letter} :
    env.get name = .ok letter ↔ env.letters.get? name = some letter := by
  rw [get]
  cases env.letters.get? name <;> simp

lemma get_eq_error_iff :
    env.get name = .error e ↔
      env.letters.get? name = none ∧ e = { cause := .templateMissing name } := by
  rw [get]
  cases env.letters.get? name with
  | none => simp [eq_comm]
  | some letter => simp

/-! ### What is reported -/

@[simp] lemma kind_report (source : String) (e : Error) : (env.report source e).kind = e.kind := by
  rw [report]
  split_ifs <;> rfl

@[simp] lemma location_report (source : String) (e : Error) :
    (env.report source e).location = e.location := by
  rw [report]
  split_ifs <;> rfl

lemma source_report (source : String) (h : e.source = none) :
    (env.report source e).source = if env.debug then some source else none := by
  rw [report]
  split_ifs
  · rw [Error.withSource, h, Option.none_or]
  · exact h

lemma plain_report (source : String) (h : e.source = none) :
    (env.report source e).plain = env.plain.report source e := by
  obtain ⟨cause, location, source'⟩ := e
  obtain rfl : source' = none := h
  rw [report]
  split_ifs <;> rfl

lemma plain_mapError {α : Type} {x : Except Error α} (h : ∀ e, x = .error e → e.source = none)
    (source : String) :
    (x.mapError (env.report source)).mapError Error.plain =
      x.mapError (env.plain.report source) := by
  cases x with
  | ok a => rfl
  | error e => exact congrArg Except.error (plain_report source (h e rfl))

/-! ### Errors -/

lemma exists_of_add (h : env.add name source = .error e) :
    ∃ e₀ : Error, e = env.report source e₀ ∧ e₀.ComesFrom name Template.faultKinds := by
  cases hparse : Template.parse source name with
  | ok blocks => simp [add_of_parse hparse] at h
  | error e₀ =>
    rw [add_of_parse_error hparse] at h
    exact ⟨e₀, (Except.error.inj h).symm, Template.comesFrom_parse hparse⟩

lemma exists_of_mapError {α : Type} {f : Error → Error} {x : Except Error α}
    (h : x.mapError f = .error e) : ∃ e₀, e = f e₀ ∧ x = .error e₀ := by
  cases x with
  | ok a => simp [Except.mapError] at h
  | error e₀ => exact ⟨e₀, (Except.error.inj h).symm, rfl⟩

lemma bind_eq_error_iff {α β : Type} {x : Except Error α} {f : α → Except Error β} :
    x >>= f = .error e ↔ x = .error e ∨ ∃ a, x = .ok a ∧ f a = .error e := by
  cases x with
  | error e₀ => simp [bind, Except.bind]
  | ok a => simp [bind, Except.bind]

/-- Where the data fails, or else what is done with its value. -/
lemma ofData_bind_eq_error_iff {f : Value → Except Error String} :
    Value.ofData data >>= f = .error e ↔
      (∃ cause, Value.ofDatum data = .error cause ∧ e = { cause }) ∨
        ∃ root, Value.ofDatum data = .ok root ∧ f root = .error e := by
  rw [bind_eq_error_iff, Value.ofData]
  cases Value.ofDatum data with
  | error cause => simp [Except.mapError, eq_comm]
  | ok root => simp [Except.mapError]

/-- An error in what is done with the value of the data. -/
lemma arises_bind {kinds : List ErrorKind} {f : Value → Except Error String}
    (hf : ∀ root e, f root = .error e → e.ComesFrom name kinds)
    (h : Value.ofData data >>= f = .error e) : e.Arises data name kinds := by
  rcases ofData_bind_eq_error_iff.1 h with ⟨cause, hdata, rfl⟩ | ⟨root, hdata, hroot⟩
  · exact .data hdata
  · exact .template hdata (hf root e hroot)

lemma comesFrom_fill {blocks : List Template.Block} {root : Value}
    (h : env.fill name blocks root = .error e) : e.ComesFrom name Render.faultKinds :=
  Render.comesFrom_letter h

lemma comesFrom_compile_fill {root : Value}
    (h : (Template.compile source >>= (env.fill Template.unnamed · root)) = .error e) :
    e.ComesFrom Template.unnamed (Template.faultKinds ++ Render.faultKinds) := by
  rcases bind_eq_error_iff.1 h with hcompile | ⟨blocks, -, hfill⟩
  · exact (Template.comesFrom_parse hcompile).mono (List.subset_append_left _ _)
  · exact (comesFrom_fill hfill).mono (List.subset_append_right _ _)

lemma render_tree (blocks : List Template.Block) (data : Datum) :
    FormLetter.render blocks data =
      (Value.ofData data >>= Environment.fill {} Template.unnamed blocks) := rfl

/-- The errors of a tree that is filled in apart from any environment. -/
theorem arises_of_render {blocks : List Template.Block}
    (h : FormLetter.render blocks data = .error e) :
    e.Arises data Template.unnamed Render.faultKinds := by
  rw [render_tree] at h
  exact arises_bind (fun _ _ => comesFrom_fill) h

theorem exists_of_render {letter : Letter} (h : env.render letter data = .error e) :
    ∃ e₀ : Error, e = env.report letter.source e₀ ∧
      e₀.Arises data letter.name Render.faultKinds := by
  obtain ⟨e₀, rfl, h₀⟩ := exists_of_mapError h
  exact ⟨e₀, rfl, arises_bind (fun _ _ => comesFrom_fill) h₀⟩

theorem exists_of_renderText (h : env.renderText source data = .error e) :
    ∃ e₀ : Error, e = env.report source e₀ ∧
      e₀.Arises data Template.unnamed (Template.faultKinds ++ Render.faultKinds) := by
  obtain ⟨e₀, rfl, h₀⟩ := exists_of_mapError h
  exact ⟨e₀, rfl, arises_bind (fun _ _ => comesFrom_compile_fill) h₀⟩

/-! ### Debug mode off -/

lemma plain_get (name : String) : (env.get name).mapError Error.plain = env.plain.get name := by
  have hplain : env.plain.get name = env.get name := rfl
  rw [hplain]
  cases hget : env.get name with
  | ok letter => rfl
  | error e =>
    obtain ⟨-, rfl⟩ := get_eq_error_iff.1 hget
    rfl

theorem plain_render (letter : Letter) (data : Datum) :
    (env.render letter data).mapError Error.plain = env.plain.render letter data :=
  plain_mapError (fun _ h => (arises_bind (fun _ _ => comesFrom_fill) h).source_eq) letter.source

theorem plain_renderText (source : String) (data : Datum) :
    (env.renderText source data).mapError Error.plain = env.plain.renderText source data :=
  plain_mapError (fun _ h => (arises_bind (fun _ _ => comesFrom_compile_fill) h).source_eq) source

end Environment
end FormLetter

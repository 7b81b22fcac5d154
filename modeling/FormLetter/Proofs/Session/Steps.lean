/-
# What the steps of a session do

A step is taken in the session that the steps before it leave behind (`run_append`).  What it does
to the environments is said in terms of ledgers, which have a row for each environment: a copy of an
environment goes with a copy of its row, another choice of the environment with another choice of
the row, and all other steps change the row of the current environment and no other (`ledger_step`).
Two ledgers that are kept along the same steps stay related row by row, if each step keeps the
relation (`Related.take`).
-/
import Mathlib.Data.List.Forall2
import FormLetter.Session

namespace FormLetter

/-- What a step makes of the current environment, if it goes on with it. -/
def Environment.behind (step : Session.Step) (env : Environment) : Environment :=
  match step with
  | .add name source =>
    match env.add name source with
    | .ok env => env
    | .error _ => env
  | .remove name => env.remove name
  | .setDebug on => { env with debug := on }
  | .setMarkdown markdown => { env with markdown }
  | .reset => {}
  | _ => env

namespace Session

/-- The session that steps leave behind. -/
def behind (s : Session) : List Step → Session
  | [] => s
  | step :: steps => (s.step step).2.behind steps

theorem run_append (s : Session) (steps steps' : List Step) :
    s.run (steps ++ steps') = s.run steps ++ (s.behind steps).run steps' := by
  induction steps generalizing s with
  | nil => rfl
  | cons step steps ih => rw [List.cons_append, run, run, ih, behind, List.cons_append]

/-! ### Ledgers -/

/-- A row for each environment of a session, and the place of the current one. -/
structure Ledger (α : Type) where
  rows : List α
  current : Nat

namespace Ledger

variable {α β : Type}

/-- The ledger behind a step that changes a row as given. -/
def take (change : Step → α → α) (l : Ledger α) : Step → Ledger α
  | .clone => ⟨l.rows ++ l.rows[l.current]?.toList, l.rows.length⟩
  | .switch index => if index < l.rows.length then { l with current := index } else l
  | step => { l with rows := l.rows.modify l.current (change step) }

/-- The rows of the two ledgers are related, one by one. -/
structure Related (R : α → β → Prop) (l : Ledger α) (l' : Ledger β) : Prop where
  rows : List.Forall₂ R l.rows l'.rows
  current_eq : l.current = l'.current

/-- The ledger with each row changed. -/
def map (f : α → β) (l : Ledger α) : Ledger β := ⟨l.rows.map f, l.current⟩

variable {R : α → β → Prop} {l : Ledger α} {l' : Ledger β}

lemma map_eq_map_iff {l l' : Ledger α} {f : α → β} :
    l.map f = l'.map f ↔ Related (fun a b => f a = f b) l l' := by
  have hrows : l.rows.map f = l'.rows.map f ↔
      List.Forall₂ (fun a b => f a = f b) l.rows l'.rows := by
    rw [← List.forall₂_eq_eq_eq, List.forall₂_map_left_iff, List.forall₂_map_right_iff]
  rw [map, map, mk.injEq, hrows]
  exact ⟨fun h => ⟨h.1, h.2⟩, fun h => ⟨h.rows, h.current_eq⟩⟩

lemma forall₂_modify {f : α → α} {g : β → β} (hf : ∀ a b, R a b → R (f a) (g b)) {as : List α}
    {bs : List β} (h : List.Forall₂ R as bs) (i : Nat) :
    List.Forall₂ R (as.modify i f) (bs.modify i g) := by
  induction h generalizing i with
  | nil => simp
  | cons hab h ih =>
    cases i with
    | zero => exact .cons (hf _ _ hab) h
    | succ i => exact .cons hab (ih i)

lemma forall₂_getElem? {as : List α} {bs : List β} (h : List.Forall₂ R as bs) (i : Nat) :
    List.Forall₂ R as[i]?.toList bs[i]?.toList := by
  induction h generalizing i with
  | nil => simp
  | cons hab h ih =>
    cases i with
    | zero => exact .cons hab .nil
    | succ i => exact ih i

theorem Related.take (h : Related R l l') {change : Step → α → α} {change' : Step → β → β}
    {step : Step} (hchange : ∀ a b, R a b → R (change step a) (change' step b)) :
    Related R (l.take change step) (l'.take change' step) := by
  obtain ⟨rows, current⟩ := l
  obtain ⟨rows', current'⟩ := l'
  obtain ⟨hrows, hcurrent⟩ := h
  obtain rfl : current = current' := hcurrent
  have hlength : rows.length = rows'.length := hrows.length_eq
  cases step with
  | clone => exact ⟨List.rel_append hrows (forall₂_getElem? hrows current), hlength⟩
  | switch index =>
    simp only [Ledger.take, ← hlength]
    split_ifs
    · exact ⟨hrows, rfl⟩
    · exact ⟨hrows, rfl⟩
  | _ => exact ⟨forall₂_modify hchange hrows current, rfl⟩

/-- A step leaves alone all rows but the current one. -/
theorem getElem?_take (change : Step → α → α) (l : Ledger α) (step : Step) {i : Nat}
    (hi : i < l.rows.length) (hne : i ≠ l.current) :
    (l.take change step).rows[i]? = l.rows[i]? := by
  cases step with
  | clone => exact List.getElem?_append_left hi
  | switch index =>
    simp only [take]
    split_ifs <;> rfl
  | _ => exact List.getElem?_modify_ne (change _) l.rows (Ne.symm hne)

end Ledger

/-- The environments and the place of the current one. -/
def ledger (s : Session) : Ledger Environment := ⟨s.environments, s.current⟩

lemma getElem?_current (s : Session) : s.environments[s.current]? = some s.environment :=
  List.getElem?_eq_getElem s.current_lt

lemma update_environment (s : Session) : s.update s.environment = s := by
  obtain ⟨environments, current, h⟩ := s
  simp [update, environment]

/-- A change of the current environment. -/
lemma ledger_update (s : Session) (f : Environment → Environment) :
    (s.update (f s.environment)).ledger = ⟨s.environments.modify s.current f, s.current⟩ := by
  rw [List.modify_eq_set_getElem?, getElem?_current]
  rfl

/-- A look at the current environment. -/
lemma ledger_of_eq (s : Session) {f : Environment → Environment}
    (h : f s.environment = s.environment) :
    s.ledger = ⟨s.environments.modify s.current f, s.current⟩ := by
  rw [← ledger_update, h, update_environment]

/-- All that a step can do to the environments. -/
theorem ledger_step (s : Session) (step : Step) :
    (s.step step).2.ledger = s.ledger.take Environment.behind step := by
  cases step with
  | clone =>
    simp only [Session.step, clone, ledger, Ledger.take, getElem?_current]
    rfl
  | switch index =>
    by_cases h : index < s.environments.length <;>
      simp [Session.step, switch, ledger, Ledger.take, h]
  | add name source =>
    simp only [Session.step]
    cases hadd : s.environment.add name source with
    | ok env =>
      have h : Environment.behind (.add name source) s.environment = env := by
        rw [Environment.behind, hadd]
      rw [← h]
      exact s.ledger_update _
    | error e => exact s.ledger_of_eq (by rw [Environment.behind, hadd])
  | remove name => exact s.ledger_update (Environment.behind (.remove name))
  | setDebug on => exact s.ledger_update (Environment.behind (.setDebug on))
  | setMarkdown markdown => exact s.ledger_update (Environment.behind (.setMarkdown markdown))
  | reset => exact s.ledger_update (Environment.behind .reset)
  | get name => exact s.ledger_of_eq (f := Environment.behind (.get name)) rfl
  | render name data => exact s.ledger_of_eq (f := Environment.behind (.render name data)) rfl
  | renderText source data =>
    exact s.ledger_of_eq (f := Environment.behind (.renderText source data)) rfl
  | debug => exact s.ledger_of_eq (f := Environment.behind .debug) rfl
  | summary => exact s.ledger_of_eq (f := Environment.behind .summary) rfl

end Session
end FormLetter

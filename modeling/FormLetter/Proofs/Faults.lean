/-
# Where errors come from

The kind of an error tells which part of the work went wrong.  A template that has no tree is
malformed or has an unknown directive (`comesFrom_parse`), and a letter that cannot be filled in has
a block that lacks its value or whose condition has no truth value (`comesFrom_letter`).  Both say in
which template and on which line that is, and neither carries the source of the template.
-/
import Mathlib.Tactic.Common
import FormLetter.Proofs.Rejected
import FormLetter.Render.Blocks

namespace FormLetter

/-- The computation gives something with the property, or fails with a cause of one of the kinds. -/
def Yields {α : Type} (kinds : List ErrorKind) (P : α → Prop) : Except Cause α → Prop
  | .ok a => P a
  | .error cause => cause.kind ∈ kinds

lemma Yields.map {α β : Type} {kinds : List ErrorKind} {P : α → Prop} {Q : β → Prop} {f : α → β}
    {x : Except Cause α} (h : Yields kinds P x) (hf : ∀ a, P a → Q (f a)) :
    Yields kinds Q (x.map f) := by
  cases x with
  | error cause => exact h
  | ok a => exact hf a h

namespace Error

/-- The error is of one of the kinds, and it has a place in the template of the given name, but not
its source. -/
structure ComesFrom (name : String) (kinds : List ErrorKind) (e : Error) : Prop where
  kind_mem : e.kind ∈ kinds
  exists_line : ∃ line, e.location = some ⟨name, line⟩
  source_eq : e.source = none

variable {name : String} {kinds : List ErrorKind} {e : Error} {cause : Cause}

lemma comesFrom_located (h : cause.kind ∈ kinds) (line : Nat) :
    (({ cause } : Error).located ⟨name, line⟩).ComesFrom name kinds := ⟨h, ⟨line, rfl⟩, rfl⟩

/-- An error that has a place keeps it. -/
lemma ComesFrom.located_eq (h : e.ComesFrom name kinds) (l : Location) : e.located l = e := by
  obtain ⟨line, hline⟩ := h.exists_line
  rw [Error.located, hline, Option.some_or, ← hline]

lemma ComesFrom.located (h : e.ComesFrom name kinds) (l : Location) :
    (e.located l).ComesFrom name kinds := by
  rwa [h.located_eq]

lemma ComesFrom.mono {kinds' : List ErrorKind} (h : e.ComesFrom name kinds)
    (hkinds : kinds ⊆ kinds') : e.ComesFrom name kinds' :=
  ⟨hkinds h.kind_mem, h.exists_line, h.source_eq⟩

end Error

/-! ### Templates without a tree -/

namespace Template

/-- The kinds of errors in a template that has no tree. -/
def faultKinds : List ErrorKind := [.malformedBlock, .unknownDirective]

lemma Segment.Rejected.kind_mem {segment : Segment} {cause : Cause} (h : segment.Rejected cause) :
    cause.kind ∈ faultKinds := by
  cases h with
  | unknownDirective => exact List.mem_cons_of_mem _ List.mem_cons_self
  | _ => exact List.mem_cons_self

lemma Draft.kind_of_run {counted : Nat} {p : Position} {d : Draft} {segments : List Segment}
    {cause : Cause} (h : (d.run counted p segments).result = .error cause) :
    cause.kind ∈ faultKinds := by
  rcases exists_rejected_of_run h with ⟨name, rfl⟩ | ⟨_, segment, _, _, hrejected, _⟩
  · exact List.mem_cons_self
  · exact hrejected.kind_mem

theorem comesFrom_parse {source name : String} {e : Error} (h : parse source name = .error e) :
    e.ComesFrom name faultKinds := by
  obtain ⟨cause, p, unread, hrun, rfl⟩ := parse_eq_error_iff_run.1 h
  exact ⟨Draft.kind_of_run (by rw [hrun]), ⟨_, rfl⟩, rfl⟩

end Template

/-! ### Letters that cannot be filled in -/

namespace Render

open Template (Block)

/-- The kinds of errors in a letter that cannot be filled in. -/
def faultKinds : List ErrorKind := [.missingParameter, .conditionType]

variable {setting : Setting}

/-- If the step fails, then with an error that has the property. -/
def FailsWith (P : Error → Prop) (o : Outcome) : Prop := ∀ e, o.1 = .error e → P e

/-- The error, at any line of the template if it has no place yet, is one of a letter. -/
def IsFault (name : String) (e : Error) : Prop :=
  ∀ line, (e.located ⟨name, line⟩).ComesFrom name faultKinds

lemma failsWith_fail {name : String} {cause : Cause} {page : Page} (h : cause.kind ∈ faultKinds) :
    FailsWith (IsFault name) (fail cause page) := by
  intro e he
  obtain rfl := Except.error.inj he
  exact Error.comesFrom_located h

/-- The error of a block inside another one has its place already. -/
lemma FailsWith.isFault {name : String} {o : Outcome}
    (h : FailsWith (Error.ComesFrom name faultKinds) o) : FailsWith (IsFault name) o :=
  fun e he _ => (h e he).located _

lemma failsWith_ok {P : Error → Prop} {page : Page} : FailsWith P (.ok (), page) :=
  fun e he => by simp at he

lemma kind_resolve {page : Page} {root : Value} {path : String} {cause : Cause}
    (h : page.resolve root path = .error cause) : cause.kind ∈ faultKinds := by
  rw [Page.resolve] at h
  split at h
  · obtain rfl := Except.error.inj h
    exact List.mem_cons_self
  · split_ifs at h
    obtain rfl := Except.error.inj h
    exact List.mem_cons_self

/-- A loop fails as one of its rounds does. -/
lemma failsWith_rounds {P : Error → Prop} {body : Page → Outcome}
    (h : ∀ page, FailsWith P (body page)) (items : List Value) (page : Page) :
    FailsWith P (rounds body items page) := by
  induction items generalizing page with
  | nil => exact failsWith_ok
  | cons item items ih =>
    have hround := h (page.enter item)
    rw [rounds]
    generalize body (page.enter item) = o at hround
    obtain ⟨_ | _, page'⟩ := o
    · exact hround
    · exact ih page'.leave

mutual

lemma failsWith_block (b : Block) (page : Page) :
    FailsWith (IsFault setting.name) (block setting b page) := by
  cases b with
  | text content span => exact failsWith_ok
  | field path span =>
    rw [block]
    cases hfound : page.resolve setting.root path with
    | error cause => exact failsWith_fail (kind_resolve hfound)
    | ok v => exact failsWith_ok
  | markdown path span =>
    rw [block]
    cases hfound : page.resolve setting.root path with
    | error cause => exact failsWith_fail (kind_resolve hfound)
    | ok v =>
      cases hv : v.text? with
      | none => simpa only [hv] using failsWith_fail List.mem_cons_self
      | some s => simpa only [hv] using failsWith_ok
  | conditional condition consequence alternative span =>
    rw [block]
    cases hfound : page.resolve setting.root condition with
    | error cause => exact failsWith_fail (kind_resolve hfound)
    | ok v =>
      rcases hv : v.truth? with _ | _ | _
      · simpa only [hv] using failsWith_fail (List.mem_cons_of_mem _ List.mem_cons_self)
      · simpa only [hv] using (failsWith_blocks alternative page).isFault
      · simpa only [hv] using (failsWith_blocks consequence page).isFault
  | loop source body span =>
    rw [block]
    cases hfound : page.resolve setting.root source with
    | error cause => exact failsWith_fail (kind_resolve hfound)
    | ok v =>
      cases hv : v.items? with
      | none => simpa only [hv] using failsWith_fail List.mem_cons_self
      | some items =>
        simpa only [hv] using
          failsWith_rounds (fun page => (failsWith_blocks body page).isFault) items page

lemma failsWith_blocks (bs : List Block) (page : Page) :
    FailsWith (Error.ComesFrom setting.name faultKinds) (blocks setting bs page) := by
  cases bs with
  | nil => exact failsWith_ok
  | cons b bs =>
    have hblock := failsWith_block b page
    rw [blocks]
    generalize block setting b page = o at hblock
    obtain ⟨e | _, page'⟩ := o
    · intro e' he'
      obtain rfl := Except.error.inj he'
      exact hblock e rfl b.span.start.line
    · exact failsWith_blocks bs page'

end

theorem comesFrom_letter {bs : List Block} {e : Error} (h : letter setting bs = .error e) :
    e.ComesFrom setting.name faultKinds := by
  have hblocks : FailsWith (Error.ComesFrom setting.name faultKinds) (blocks setting bs .blank) :=
    failsWith_blocks bs .blank
  rw [letter] at h
  generalize blocks setting bs .blank = o at h hblocks
  obtain ⟨e' | _, page⟩ := o
  · obtain rfl := Except.error.inj h
    exact hblocks e' rfl
  · simp at h

end Render
end FormLetter

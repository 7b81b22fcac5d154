/-
# Filling in a letter task by task

While a letter is filled in, what is still to do is a row of tasks: blocks to fill in, rounds of
loops to begin and to end.  A step performs the first task, and may put other tasks in its place.
A block stops the letter if it cannot use the value at its own path, since there is none or it is
of another kind (`Unusable`).

Filling in whole blocks, one inside the other, is the same as performing all tasks: a letter fails
just in case the tasks lead to a block that stops it, and then the error is about that block
(`letter_eq_error_iff`).  There is only one way to go on from each stage.  So the block that stops
a letter is the first one that could (`Reaches.filled_in`), and it does not depend on what is to be
done behind it (`Reaches.unaffected`).
-/
import Mathlib.Logic.Relation
import FormLetter.Proofs.Render.Paths
import FormLetter.Render.Blocks

namespace FormLetter

/-- The path of the value that the block needs. -/
def Template.Block.path? : Template.Block → Option String
  | text _ _ => none
  | field path _ => some path
  | markdown path _ => some path
  | conditional condition _ _ _ => some condition
  | loop source _ _ => some source

namespace Render

open Template (Block Span)

/-- Something to do while a letter is filled in. -/
inductive Task where
  /-- To fill in a block. -/
  | fill (b : Block)
  /-- To begin a round of a loop. -/
  | enter (body : List Block) (item : Value)
  /-- To end a round of a loop. -/
  | leave

/-- The page, and what is still to do. -/
structure Stage where
  todo : List Task
  page : Page

/-- The stage before anything is done. -/
def Stage.start (bs : List Block) : Stage := ⟨bs.map .fill, .blank⟩

/-- Performs the first task. -/
inductive Step (setting : Setting) : Stage → Stage → Prop
  | text {content : String} {span : Span} {later : List Task} {page : Page} :
    Step setting ⟨.fill (.text content span) :: later, page⟩ ⟨later, page.write content⟩
  | field {path : String} {span : Span} {later : List Task} {page : Page} {v : Value}
      (hv : page.resolve setting.root path = .ok v) :
    Step setting ⟨.fill (.field path span) :: later, page⟩ ⟨later, page.write v.text⟩
  | markdown {path : String} {span : Span} {later : List Task} {page : Page} {v : Value}
      {s : String} (hv : page.resolve setting.root path = .ok v) (hs : v.text? = some s) :
    Step setting ⟨.fill (.markdown path span) :: later, page⟩
      ⟨later, page.write (setting.markdown s)⟩
  | consequence {condition : String} {consequence alternative : List Block} {span : Span}
      {later : List Task} {page : Page} {v : Value}
      (hv : page.resolve setting.root condition = .ok v) (htruth : v.truth? = some true) :
    Step setting ⟨.fill (.conditional condition consequence alternative span) :: later, page⟩
      ⟨consequence.map .fill ++ later, page⟩
  | alternative {condition : String} {consequence alternative : List Block} {span : Span}
      {later : List Task} {page : Page} {v : Value}
      (hv : page.resolve setting.root condition = .ok v) (htruth : v.truth? = some false) :
    Step setting ⟨.fill (.conditional condition consequence alternative span) :: later, page⟩
      ⟨alternative.map .fill ++ later, page⟩
  | loop {source : String} {body : List Block} {span : Span} {later : List Task} {page : Page}
      {v : Value} {items : List Value} (hv : page.resolve setting.root source = .ok v)
      (hitems : v.items? = some items) :
    Step setting ⟨.fill (.loop source body span) :: later, page⟩
      ⟨items.map (.enter body) ++ later, page⟩
  | enter {body : List Block} {item : Value} {later : List Task} {page : Page} :
    Step setting ⟨.enter body item :: later, page⟩
      ⟨body.map .fill ++ .leave :: later, page.enter item⟩
  | leave {later : List Task} {page : Page} :
    Step setting ⟨.leave :: later, page⟩ ⟨later, page.leave⟩

/-- The second stage comes after the first one, or is the same. -/
def Reaches (setting : Setting) : Stage → Stage → Prop := Relation.ReflTransGen (Step setting)

/-- The block cannot use the value at its path, and this is why. -/
inductive Unusable (setting : Setting) (page : Page) : Block → Cause → Prop
  /-- There is no value at the path, or the absence of one. -/
  | missing {b : Block} {path : String} (hpath : b.path? = some path)
      (h : page.find? setting.root path = none ∨ page.find? setting.root path = some .none) :
    Unusable setting page b (.valueMissing path)
  | markdown {path : String} {span : Span} {v : Value}
      (hv : page.resolve setting.root path = .ok v) (htext : v.text? = none) :
    Unusable setting page (.markdown path span) (.textExpected path v.kind)
  | condition {path : String} {consequence alternative : List Block} {span : Span} {v : Value}
      (hv : page.resolve setting.root path = .ok v) (htruth : v.truth? = none) :
    Unusable setting page (.conditional path consequence alternative span)
      (.truthExpected path v.kind)
  | source {path : String} {body : List Block} {span : Span} {v : Value}
      (hv : page.resolve setting.root path = .ok v) (hitems : v.items? = none) :
    Unusable setting page (.loop path body span) (.sequenceExpected path v.kind)

/-- The error about a block that stops the letter. -/
def faultError (setting : Setting) (b : Block) (cause : Cause) : Error :=
  { cause, location := some ⟨setting.name, b.span.start.line⟩ }

variable {setting : Setting} {page : Page} {b : Block} {cause : Cause} {later : List Task}

/-! ### One way to go on -/

lemma resolve_eq_error_iff {root : Value} {path : String} :
    page.resolve root path = .error cause ↔
      (page.find? root path = none ∨ page.find? root path = some .none) ∧
        cause = .valueMissing path := by
  rw [Page.resolve]
  cases page.find? root path with
  | none => simp [eq_comm]
  | some v =>
    dsimp only
    split_ifs with hnone
    · simp [isNone_eq_true_iff.1 hnone, eq_comm]
    · simp [mt isNone_eq_true_iff.2 hnone]

/-- There is at most one way to go on. -/
theorem Step.rightUnique : Relator.RightUnique (Step setting) := by
  intro s t t' h h'
  cases h <;> cases h' <;> simp_all

/-- A block that cannot use the value at its path fails without writing anything. -/
lemma Unusable.block_eq (h : Unusable setting page b cause) :
    block setting b page = fail cause page := by
  cases h with
  | missing hpath hfind =>
    have hmissing := resolve_eq_error_iff.2 ⟨hfind, rfl⟩
    cases b with
    | text content span => cases hpath
    | _ =>
      obtain rfl := Option.some.inj hpath
      simp only [block, hmissing]
  | markdown hv htext => simp only [block, hv, htext]
  | condition hv htruth => simp only [block, hv, htruth]
  | source hv hitems => simp only [block, hv, hitems]

lemma not_step_nil {s : Stage} : ¬ Step setting ⟨[], page⟩ s := by
  intro h
  cases h

/-- A block with a path is filled in only if there is a value at the path. -/
lemma Step.exists_value {s : Stage} {path : String}
    (h : Step setting ⟨.fill b :: later, page⟩ s) (hpath : b.path? = some path) :
    ∃ v, page.resolve setting.root path = .ok v := by
  cases h with
  | text => cases hpath
  | field hv | markdown hv | consequence hv | alternative hv | loop hv =>
    exact ⟨_, Option.some.inj hpath ▸ hv⟩

lemma Unusable.not_step (h : Unusable setting page b cause) {s : Stage} :
    ¬ Step setting ⟨.fill b :: later, page⟩ s := by
  intro hstep
  cases h with
  | missing hpath hfind =>
    obtain ⟨v, hv⟩ := hstep.exists_value hpath
    rw [resolve_eq_error_iff.2 ⟨hfind, rfl⟩] at hv
    cases hv
  -- the value that a step uses would be of the kind that it is not
  | markdown hv htext =>
    cases hstep
    simp_all
  | condition hv htruth => cases hstep <;> simp_all
  | source hv hitems =>
    cases hstep
    simp_all

/-- A stage that cannot be gone on from comes after all others. -/
lemma Reaches.of_stuck {s t t' : Stage} (h : Reaches setting s t) (h' : Reaches setting s t')
    (ht : ∀ u, ¬ Step setting t u) : Reaches setting t' t := by
  rcases Relation.ReflTransGen.total_of_right_unique Step.rightUnique h h' with h | h
  · rcases h.cases_head with rfl | ⟨u, hu, -⟩
    · exact .refl
    · exact absurd hu (ht u)
  · exact h

lemma Reaches.eq_of_stuck {s t t' : Stage} (h : Reaches setting s t) (h' : Reaches setting s t')
    (ht : ∀ u, ¬ Step setting t u) (ht' : ∀ u, ¬ Step setting t' u) : t = t' := by
  rcases (h'.of_stuck h ht').cases_head with heq | ⟨u, hu, -⟩
  · exact heq
  · exact absurd hu (ht u)

/-- At most one block stops a letter, and it does so once, for one reason. -/
lemma Reaches.eq_of_unusable {s : Stage} {b' : Block} {page' : Page} {later' : List Task}
    {cause' : Cause} (h : Reaches setting s ⟨.fill b :: later, page⟩)
    (h' : Reaches setting s ⟨.fill b' :: later', page'⟩) (hunusable : Unusable setting page b cause)
    (hunusable' : Unusable setting page' b' cause') :
    b = b' ∧ page = page' ∧ later = later' ∧ cause = cause' := by
  have heq := h.eq_of_stuck h' (fun _ => hunusable.not_step) fun _ => hunusable'.not_step
  simp only [Stage.mk.injEq, List.cons.injEq, Task.fill.injEq] at heq
  obtain ⟨⟨rfl, rfl⟩, rfl⟩ := heq
  have hfail : fail cause page = fail cause' page :=
    hunusable.block_eq.symm.trans hunusable'.block_eq
  simp only [fail, Prod.mk.injEq, Except.error.injEq, Error.mk.injEq] at hfail
  exact ⟨rfl, rfl, rfl, hfail.1.1⟩

/-! ### Whole blocks as tasks -/

/-- The tasks lead to a block that stops the letter with the error. -/
def ComesToFault (setting : Setting) (todo : List Task) (page : Page) (e : Error) : Prop :=
  ∃ b q cause inner,
    (∀ later, Reaches setting ⟨todo ++ later, page⟩ ⟨.fill b :: (inner ++ later), q⟩) ∧
      Unusable setting q b cause ∧ e = faultError setting b cause

/-- The tasks end with the outcome, whatever is to be done later. -/
def Traces (setting : Setting) (todo : List Task) (page : Page) : Outcome → Prop
  | (.ok _, page') => ∀ later, Reaches setting ⟨todo ++ later, page⟩ ⟨later, page'⟩
  | (.error e, _) => ComesToFault setting todo page e

/-- The outcome of a block, as it is for the blocks around it. -/
def placed (setting : Setting) (b : Block) (o : Outcome) : Outcome :=
  (o.1.mapError (·.located ⟨setting.name, b.span.start.line⟩), o.2)

section

variable {todo todo' : List Task} {page' : Page} {o : Outcome} {e : Error}

lemma ComesToFault.append (h : ComesToFault setting todo page e) (more : List Task) :
    ComesToFault setting (todo ++ more) page e := by
  obtain ⟨b, q, cause, inner, hreaches, hunusable, rfl⟩ := h
  refine ⟨b, q, cause, inner ++ more, fun later => ?_, hunusable, rfl⟩
  rw [List.append_assoc, List.append_assoc]
  exact hreaches (more ++ later)

lemma Traces.of_reaches
    (h : ∀ later, Reaches setting ⟨todo ++ later, page⟩ ⟨todo' ++ later, page'⟩)
    (ho : Traces setting todo' page' o) : Traces setting todo page o := by
  obtain ⟨e | _, page''⟩ := o
  · obtain ⟨b, q, cause, inner, hreaches, hfault⟩ := ho
    exact ⟨b, q, cause, inner, fun later => (h later).trans (hreaches later), hfault⟩
  · exact fun later => (h later).trans (ho later)

/-- The error of a block inside another one has its place already. -/
lemma Traces.placed (h : Traces setting todo page o) (b : Block) :
    Traces setting todo page (placed setting b o) := by
  obtain ⟨e | _, page'⟩ := o
  · obtain ⟨b', q, cause, inner, hreaches, hunusable, rfl⟩ := h
    exact ⟨b', q, cause, inner, hreaches, hunusable, rfl⟩
  · exact h

/-- A step that a block begins with. -/
lemma Traces.of_step (h : ∀ later, Step setting ⟨.fill b :: later, page⟩ ⟨todo ++ later, page'⟩)
    (ho : Traces setting todo page' o) :
    Traces setting [.fill b] page (Render.placed setting b o) :=
  (ho.placed b).of_reaches fun later => .single (h later)

lemma traces_nil : Traces setting [] page (.ok (), page) := fun _ => .refl

lemma traces_fail (h : Unusable setting page b cause) :
    Traces setting [.fill b] page (Render.placed setting b (fail cause page)) :=
  ⟨b, page, cause, [], fun _ => .refl, h, rfl⟩

end

/-- The rounds of a loop. -/
lemma traces_rounds {body : List Block}
    (h : ∀ page, Traces setting (body.map .fill) page (blocks setting body page))
    (items : List Value) (page : Page) :
    Traces setting (items.map (.enter body)) page (rounds (blocks setting body) items page) := by
  induction items generalizing page with
  | nil => exact traces_nil
  | cons item items ih =>
    have hround := h (page.enter item)
    rw [rounds]
    generalize blocks setting body (page.enter item) = o at hround
    obtain ⟨e | _, page'⟩ := o
    · -- the end of this round and the other rounds are left to be done
      have hfault := ComesToFault.append hround (.leave :: items.map (.enter body))
      refine Traces.of_reaches (o := (.error e, page'.leave)) (fun later => ?_) hfault
      rw [List.append_assoc]
      exact .single .enter
    · refine Traces.of_reaches (fun later => ?_) (ih page'.leave)
      have hdone := hround (.leave :: (items.map (.enter body) ++ later))
      exact (Relation.ReflTransGen.single .enter).trans (hdone.tail .leave)

mutual

lemma traces_block (b : Block) (page : Page) :
    Traces setting [.fill b] page (placed setting b (block setting b page)) := by
  cases b with
  | text content span => exact .of_step (fun _ => .text) traces_nil
  | field path span =>
    rw [block]
    cases hfound : page.resolve setting.root path with
    | error cause =>
      obtain ⟨hfind, rfl⟩ := resolve_eq_error_iff.1 hfound
      exact traces_fail (.missing rfl hfind)
    | ok v => exact .of_step (fun _ => .field hfound) traces_nil
  | markdown path span =>
    rw [block]
    cases hfound : page.resolve setting.root path with
    | error cause =>
      obtain ⟨hfind, rfl⟩ := resolve_eq_error_iff.1 hfound
      exact traces_fail (.missing rfl hfind)
    | ok v =>
      cases hv : v.text? with
      | none => simpa only [hv] using traces_fail (.markdown hfound hv)
      | some s => simpa only [hv] using Traces.of_step (fun _ => .markdown hfound hv) traces_nil
  | conditional condition consequence alternative span =>
    rw [block]
    cases hfound : page.resolve setting.root condition with
    | error cause =>
      obtain ⟨hfind, rfl⟩ := resolve_eq_error_iff.1 hfound
      exact traces_fail (.missing rfl hfind)
    | ok v =>
      rcases hv : v.truth? with _ | _ | _
      · simpa only [hv] using traces_fail (.condition hfound hv)
      · simpa only [hv] using
          Traces.of_step (fun _ => .alternative hfound hv) (traces_blocks alternative page)
      · simpa only [hv] using
          Traces.of_step (fun _ => .consequence hfound hv) (traces_blocks consequence page)
  | loop source body span =>
    rw [block]
    cases hfound : page.resolve setting.root source with
    | error cause =>
      obtain ⟨hfind, rfl⟩ := resolve_eq_error_iff.1 hfound
      exact traces_fail (.missing rfl hfind)
    | ok v =>
      cases hv : v.items? with
      | none => simpa only [hv] using traces_fail (.source hfound hv)
      | some items =>
        simpa only [hv] using Traces.of_step (fun _ => .loop hfound hv)
          (traces_rounds (fun page => traces_blocks body page) items page)

lemma traces_blocks (bs : List Block) (page : Page) :
    Traces setting (bs.map .fill) page (blocks setting bs page) := by
  cases bs with
  | nil => exact traces_nil
  | cons b bs =>
    have hblock := traces_block b page
    rw [blocks]
    generalize block setting b page = o at hblock
    obtain ⟨e | _, page'⟩ := o
    · exact ComesToFault.append hblock (bs.map .fill)
    · exact .of_reaches (fun later => hblock (bs.map .fill ++ later)) (traces_blocks bs page')

end

lemma exists_traces (todo : List Task) (page : Page) : ∃ o, Traces setting todo page o := by
  induction todo generalizing page with
  | nil => exact ⟨_, traces_nil⟩
  | cons task todo ih =>
    have hfirst : ∃ o, Traces setting [task] page o := by
      cases task with
      | fill b => exact ⟨_, traces_block b page⟩
      | enter body item => exact ⟨_, traces_rounds (fun page => traces_blocks body page) [item] page⟩
      | leave => exact ⟨(.ok (), page.leave), fun _ => .single .leave⟩
    obtain ⟨⟨e | _, page'⟩, ho⟩ := hfirst
    · exact ⟨(.error e, page'), ComesToFault.append ho todo⟩
    · obtain ⟨o, hrest⟩ := ih page'
      exact ⟨o, hrest.of_reaches fun later => ho (todo ++ later)⟩

/-! ### The block that stops a letter -/

section

variable {s : Stage} {rest : List Task} {q : Page}

/-- Each block that is come to is either filled in before the one that stops the letter, or it
fails, and that one is come to while it is filled in. -/
theorem Reaches.filled_in {b' : Block} (h : Reaches setting s ⟨.fill b :: later, page⟩)
    (hunusable : Unusable setting page b cause)
    (hblock : Reaches setting s ⟨.fill b' :: rest, q⟩) :
    (∃ q', block setting b' q = (.ok (), q') ∧
      Reaches setting ⟨rest, q'⟩ ⟨.fill b :: later, page⟩) ∨
    ∃ e inner, (block setting b' q).1 = .error e ∧ later = inner ++ rest ∧
      Reaches setting ⟨[.fill b'], q⟩ ⟨.fill b :: inner, page⟩ := by
  have htraces : Traces setting [.fill b'] q (placed setting b' (block setting b' q)) :=
    traces_block b' q
  cases hresult : block setting b' q with
  | mk result q' =>
    rw [hresult] at htraces
    cases result with
    | ok =>
      exact Or.inl ⟨q', rfl, h.of_stuck (hblock.trans (htraces rest)) fun _ => hunusable.not_step⟩
    | error e =>
      obtain ⟨b'', q'', cause'', inner, hreaches, hunusable', -⟩ := htraces
      obtain ⟨rfl, rfl, hlater, -⟩ :=
        h.eq_of_unusable (hblock.trans (hreaches rest)) hunusable hunusable'
      have hinside := hreaches []
      rw [List.append_nil, List.append_nil] at hinside
      exact Or.inr ⟨e, inner, rfl, hlater, hinside⟩

/-- What is to be done behind some tasks makes no difference to them: either they are performed
before the block that stops the letter is come to, or it is come to while they are performed. -/
theorem Reaches.unaffected {first : List Task} (h : Reaches setting s ⟨.fill b :: later, page⟩)
    (hunusable : Unusable setting page b cause) (hfirst : Reaches setting s ⟨first ++ rest, q⟩) :
    (∃ q', (∀ rest', Reaches setting ⟨first ++ rest', q⟩ ⟨rest', q'⟩) ∧
      Reaches setting ⟨rest, q'⟩ ⟨.fill b :: later, page⟩) ∨
    ∃ inner, later = inner ++ rest ∧
      ∀ rest', Reaches setting ⟨first ++ rest', q⟩ ⟨.fill b :: (inner ++ rest'), page⟩ := by
  obtain ⟨⟨e | _, q'⟩, htraces⟩ : ∃ o, Traces setting first q o := exists_traces first q
  · obtain ⟨b', q'', cause', inner, hreaches, hunusable', -⟩ := htraces
    obtain ⟨rfl, rfl, rfl, -⟩ :=
      h.eq_of_unusable (hfirst.trans (hreaches rest)) hunusable hunusable'
    exact Or.inr ⟨inner, rfl, hreaches⟩
  · exact Or.inl
      ⟨q', htraces, h.of_stuck (hfirst.trans (htraces rest)) fun _ => hunusable.not_step⟩

end

/-! ### Letters -/

lemma exists_reaches_of_letter_ok {bs : List Block} {text : String}
    (h : letter setting bs = .ok text) :
    ∃ page, Reaches setting (.start bs) ⟨[], page⟩ ∧ page.output = text := by
  have htraces : Traces setting (bs.map .fill) .blank (blocks setting bs .blank) :=
    traces_blocks bs .blank
  rw [letter] at h
  generalize blocks setting bs .blank = o at h htraces
  obtain ⟨e | _, page⟩ := o
  · simp at h
  · have hreaches := htraces []
    rw [List.append_nil] at hreaches
    exact ⟨page, hreaches, Except.ok.inj h⟩

lemma exists_reaches_of_letter_error {bs : List Block} {e : Error}
    (h : letter setting bs = .error e) :
    ∃ b page later cause, Reaches setting (.start bs) ⟨.fill b :: later, page⟩ ∧
      Unusable setting page b cause ∧ e = faultError setting b cause := by
  have htraces : Traces setting (bs.map .fill) .blank (blocks setting bs .blank) :=
    traces_blocks bs .blank
  rw [letter] at h
  generalize blocks setting bs .blank = o at h htraces
  obtain ⟨e' | _, page⟩ := o
  · obtain rfl := Except.error.inj h
    obtain ⟨b, q, cause, inner, hreaches, hunusable, heq⟩ := htraces
    have hreaches := hreaches []
    rw [List.append_nil, List.append_nil] at hreaches
    exact ⟨b, q, inner, cause, hreaches, hunusable, heq⟩
  · simp at h

/-- A letter fails just in case its tasks lead to a block that stops it, and the error is about that
block. -/
theorem letter_eq_error_iff {bs : List Block} {e : Error} :
    letter setting bs = .error e ↔
      ∃ b page later cause, Reaches setting (.start bs) ⟨.fill b :: later, page⟩ ∧
        Unusable setting page b cause ∧ e = faultError setting b cause := by
  refine ⟨exists_reaches_of_letter_error, ?_⟩
  rintro ⟨b, page, later, cause, hreaches, hunusable, rfl⟩
  cases hletter : letter setting bs with
  | ok text =>
    obtain ⟨page', hend, -⟩ := exists_reaches_of_letter_ok hletter
    have heq := hreaches.eq_of_stuck hend (fun _ => hunusable.not_step) fun _ => not_step_nil
    simp at heq
  | error e' =>
    obtain ⟨b', page', later', cause', hreaches', hunusable', rfl⟩ :=
      exists_reaches_of_letter_error hletter
    obtain ⟨rfl, -, -, rfl⟩ := hreaches.eq_of_unusable hreaches' hunusable hunusable'
    rfl

end Render
end FormLetter

/-
# What filling in blocks does to a page

Blocks that stand in a row are filled in one row after the other (`blocks_append`).  Filling in
blocks ends with the items that it started with (`items_blocks`), and it only adds to the text of
the page: what is on the page already, and where the blocks stand in which template, make no
difference except that the text stays in front and that an error is placed elsewhere
(`blocks_transferred`).
-/
import FormLetter.Proofs.Faults
import FormLetter.Proofs.Placement
import FormLetter.Render.Blocks

namespace FormLetter

/-- The error with its line changed, if it has a place. -/
def Error.relocate (g : Nat → Nat) (e : Error) : Error :=
  { e with location := e.location.map fun l => ⟨l.name, g l.line⟩ }

/-- The error at the place that its place is sent to, if it has one. -/
def Error.placed (h : Location → Location) (e : Error) : Error :=
  { e with location := e.location.map h }

lemma Error.placed_located (h : Location → Location) (e : Error) (l : Location) :
    (e.placed h).located (h l) = (e.located l).placed h := by
  obtain ⟨cause, location, source⟩ := e
  cases location <;> rfl

namespace Render

open Template (Block Position)

variable {setting : Setting}

/-- The page with more text in front of what is written on it. -/
def Page.behind (text : String) (page : Page) : Page := { page with output := text ++ page.output }

/-- The end of a step that started behind some text, its error at another place. -/
def transferred (h : Location → Location) (text : String) (o : Outcome) : Outcome :=
  (o.1.mapError (Error.placed h), o.2.behind text)

/-- The end of a step that started behind some text, its error at another line. -/
def moved (g : Nat → Nat) (text : String) (o : Outcome) : Outcome :=
  (o.1.mapError (Error.relocate g), o.2.behind text)

/-! ### Blocks in a row -/

theorem blocks_append (as bs : List Block) (page : Page) :
    blocks setting (as ++ bs) page =
      match blocks setting as page with
      | (.ok _, page) => blocks setting bs page
      | (.error e, page) => (.error e, page) := by
  induction as generalizing page with
  | nil => rfl
  | cons b as ih =>
    simp only [List.cons_append, blocks]
    rcases block setting b page with ⟨_ | _, page'⟩
    · rfl
    · exact ih page'

/-! ### The items of the running loops -/

lemma items_rounds {body : Page → Outcome} (h : ∀ page, (body page).2.items = page.items)
    (items : List Value) (page : Page) : (rounds body items page).2.items = page.items := by
  induction items generalizing page with
  | nil => rfl
  | cons item items ih =>
    have hround := h (page.enter item)
    rw [rounds]
    generalize body (page.enter item) = o at hround
    obtain ⟨_ | _, page'⟩ := o
    -- the item of the round is on top again, and `leave` takes it off
    · exact congrArg List.tail hround
    · exact (ih page'.leave).trans (congrArg List.tail hround)

mutual

theorem items_block (b : Block) (page : Page) : (block setting b page).2.items = page.items := by
  cases b with
  | text content span => rfl
  | field path span =>
    rw [block]
    cases page.resolve setting.root path <;> rfl
  | markdown path span =>
    rw [block]
    cases page.resolve setting.root path with
    | error cause => rfl
    | ok v => cases hv : v.text? <;> simp [hv, fail, Page.write]
  | conditional condition consequence alternative span =>
    rw [block]
    cases page.resolve setting.root condition with
    | error cause => rfl
    | ok v =>
      rcases hv : v.truth? with _ | _ | _
      · simp [hv, fail]
      · simpa [hv] using items_blocks alternative page
      · simpa [hv] using items_blocks consequence page
  | loop source body span =>
    rw [block]
    cases page.resolve setting.root source with
    | error cause => rfl
    | ok v =>
      cases hv : v.items? with
      | none => simp [hv, fail]
      | some items => simpa [hv] using items_rounds (items_blocks body) items page

/-- Filling in blocks ends with the items that it started with. -/
theorem items_blocks (bs : List Block) (page : Page) :
    (blocks setting bs page).2.items = page.items := by
  cases bs with
  | nil => rfl
  | cons b bs =>
    have hblock := items_block b page
    rw [blocks]
    generalize block setting b page = o at hblock
    obtain ⟨_ | _, page'⟩ := o
    · exact hblock
    · exact (items_blocks bs page').trans hblock

end

/-! ### Text in front, and blocks in another place -/

lemma rounds_transferred {h : Location → Location} {text : String} {body body' : Page → Outcome}
    (hbody : ∀ page, body' (page.behind text) = transferred h text (body page))
    (items : List Value) (page : Page) :
    rounds body' items (page.behind text) = transferred h text (rounds body items page) := by
  induction items generalizing page with
  | nil => rfl
  | cons item items ih =>
    have hround : body' ((page.behind text).enter item) =
        transferred h text (body (page.enter item)) := hbody (page.enter item)
    rw [rounds, rounds, hround]
    rcases body (page.enter item) with ⟨_ | _, page'⟩
    · rfl
    · exact ih page'.leave

lemma resolve_behind (text : String) (page : Page) (root : Value) (path : String) :
    (page.behind text).resolve root path = page.resolve root path := rfl

lemma write_behind (text : String) (page : Page) (s : String) :
    (page.behind text).write s = (page.write s).behind text := by
  simp [Page.write, Page.behind, String.append_assoc]

variable {f : Position → Position} {h : Location → Location} {name : String}

mutual

theorem block_transferred (hplace : ∀ p, h ⟨setting.name, p.line⟩ = ⟨name, (f p).line⟩)
    (text : String) (b : Block) (page : Page) :
    block { setting with name } (b.relocate f) (page.behind text) =
      transferred h text (block setting b page) := by
  cases b with
  | text content span => simp [Block.relocate, block, transferred, write_behind, Except.mapError]
  | field path span =>
    simp only [Block.relocate, block, resolve_behind]
    cases page.resolve setting.root path <;>
      simp [fail, transferred, write_behind, Except.mapError, Error.placed]
  | markdown path span =>
    simp only [Block.relocate, block, resolve_behind]
    cases page.resolve setting.root path with
    | error cause => rfl
    | ok v =>
      cases hv : v.text? <;>
        simp [hv, fail, transferred, write_behind, Except.mapError, Error.placed]
  | conditional condition consequence alternative span =>
    simp only [Block.relocate, block, resolve_behind]
    cases page.resolve setting.root condition with
    | error cause => rfl
    | ok v =>
      rcases hv : v.truth? with _ | _ | _
      · simp [hv, fail, transferred, Except.mapError, Error.placed]
      · simpa [hv] using blocks_transferred hplace text alternative page
      · simpa [hv] using blocks_transferred hplace text consequence page
  | loop source body span =>
    simp only [Block.relocate, block, resolve_behind]
    cases page.resolve setting.root source with
    | error cause => rfl
    | ok v =>
      cases hv : v.items? with
      | none => simp [hv, fail, transferred, Except.mapError, Error.placed]
      | some items =>
        simpa [hv] using rounds_transferred (blocks_transferred hplace text body) items page

/-- **Transfer.**  Blocks in another place of another template, on a page with more text in front, do
what they did before; the errors are placed where the blocks are now. -/
theorem blocks_transferred (hplace : ∀ p, h ⟨setting.name, p.line⟩ = ⟨name, (f p).line⟩)
    (text : String) (bs : List Block) (page : Page) :
    blocks { setting with name } (Block.relocateAll f bs) (page.behind text) =
      transferred h text (blocks setting bs page) := by
  cases bs with
  | nil => rfl
  | cons b bs =>
    rw [Block.relocateAll, blocks, blocks, block_transferred hplace text b page]
    rcases block setting b page with ⟨e | _, page'⟩
    · -- the block gives the error its own place if it has none, so that place is sent on too
      simp only [transferred, Except.mapError, Block.span_relocate, ← hplace, Error.placed_located]
    · exact blocks_transferred hplace text bs page'

end

variable {g : Nat → Nat}

/-- **Moving.**  Blocks in another place of their template, on a page with more text in front, do
what they did before; the errors are placed where the blocks are now. -/
theorem blocks_relocate (hline : ∀ p, (f p).line = g p.line) (text : String) (bs : List Block)
    (page : Page) :
    blocks setting (Block.relocateAll f bs) (page.behind text) =
      moved g text (blocks setting bs page) :=
  blocks_transferred (h := fun l => ⟨l.name, g l.line⟩) (by simp [hline]) text bs page

@[simp] lemma behind_empty (page : Page) : page.behind "" = page := by
  simp [Page.behind]

theorem letter_relocate (hline : ∀ p, (f p).line = g p.line) (bs : List Block) :
    letter setting (Block.relocateAll f bs) = (letter setting bs).mapError (Error.relocate g) := by
  have h : blocks setting (Block.relocateAll f bs) (Page.blank.behind "") = _ :=
    blocks_relocate hline "" bs .blank
  rw [behind_empty] at h
  rw [letter, letter, h]
  rcases blocks setting bs .blank with ⟨_ | _, page⟩ <;> simp [moved, Except.mapError]

/-- A page at the end of some blocks is a blank one behind the text that is written. -/
lemma eq_blank_behind {bs : List Block} {o : Except Error Unit} {page : Page}
    (h : blocks setting bs .blank = (o, page)) : page = Page.blank.behind page.output := by
  have hitems : (blocks setting bs .blank).2.items = [] := items_blocks bs .blank
  rw [h] at hitems
  obtain ⟨items, output⟩ := page
  simpa [Page.behind, Page.blank] using hitems

/-- The letter of some blocks and of others behind them. -/
theorem letter_append (as bs : List Block) {q : Position} (hq : 1 ≤ q.line) :
    letter setting (as ++ Block.relocateAll q.plus bs) =
      match letter setting as with
      | .ok text =>
        ((letter setting bs).map (text ++ ·)).mapError (Error.relocate (· + (q.line - 1)))
      | .error e => .error e := by
  rw [letter, letter, blocks_append]
  rcases has : blocks setting as .blank with ⟨_ | _, page⟩
  · rfl
  · -- the other blocks start on a blank page behind the text of the first ones
    have hbs : blocks setting (Block.relocateAll q.plus bs) (Page.blank.behind page.output) = _ :=
      blocks_relocate (g := (· + (q.line - 1))) (Position.line_plus hq) page.output bs .blank
    rw [← eq_blank_behind has] at hbs
    simp only [hbs]
    rw [letter]
    rcases blocks setting bs .blank with ⟨_ | _, page'⟩ <;> rfl

/-- An error in a letter has a place. -/
lemma exists_location {bs : List Block} {e : Error} (h : letter setting bs = .error e) :
    ∃ l, e.location = some l := by
  obtain ⟨line, hline⟩ := (comesFrom_letter h).exists_line
  exact ⟨_, hline⟩

/-- The places that blocks were read from make no difference to the text of a letter. -/
lemma letter_eq_ok_iff_shapes (bs : List Block) (text : String) :
    letter setting (Block.shapes bs) = .ok text ↔ letter setting bs = .ok text := by
  rw [Block.shapes, letter_relocate (g := fun _ => 1) (fun _ => rfl)]
  cases letter setting bs <;> simp [Except.mapError]

end Render
end FormLetter

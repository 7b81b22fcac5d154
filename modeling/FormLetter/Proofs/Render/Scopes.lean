/-
# Scopes

Where blocks are filled in matters only for the item of the innermost loop, if there is one: this is
their scope.  In the same scope blocks write the same text and end in the same way, whatever is on
the page and whichever loops run further out, and the items of the running loops are behind them
what they were in front of them (`blocks_together`).

So a loop over a body is that body in the scopes of the items, in turn, up to the first item for
which it fails; and the blocks behind the loop are in the scope of those in front of it
(`blocks_clean`).
-/
import FormLetter.Proofs.Faults

namespace FormLetter
namespace Render

open Template (Block Span)

/-- The pages are outside all loops, or in loops over the same item, whatever loops are around. -/
def SameScope (page page' : Page) : Prop := page.items.head? = page'.items.head?

/-- Two steps, each from its own page, write the same text, end in the same way and leave the items
of the running loops as they were. -/
def Together (page page' : Page) (o o' : Outcome) : Prop :=
  ∃ result text, o = (result, page.write text) ∧ o' = (result, page'.write text)

variable {setting : Setting} {page page' : Page}

/-! ### Single steps -/

@[simp] lemma write_write (page : Page) (s t : String) :
    (page.write s).write t = page.write (s ++ t) := by
  simp [Page.write, String.append_assoc]

@[simp] lemma write_empty (page : Page) : page.write "" = page := by
  simp [Page.write]

lemma together_ok : Together page page' (.ok (), page) (.ok (), page') :=
  ⟨.ok (), "", by rw [write_empty], by rw [write_empty]⟩

lemma together_write (s : String) :
    Together page page' (.ok (), page.write s) (.ok (), page'.write s) := ⟨_, s, rfl, rfl⟩

lemma together_fail (cause : Cause) : Together page page' (fail cause page) (fail cause page') :=
  ⟨.error { cause }, "", by rw [write_empty, fail], by rw [write_empty, fail]⟩

lemma SameScope.write (h : SameScope page page') (s : String) :
    SameScope (page.write s) (page'.write s) := h

lemma SameScope.resolve_eq (h : SameScope page page') (root : Value) (path : String) :
    page.resolve root path = page'.resolve root path := by
  obtain ⟨items, output⟩ := page
  obtain ⟨items', output'⟩ := page'
  -- only the first one of the items is looked at
  have hfind : Page.find? ⟨items, output⟩ root path = Page.find? ⟨items', output'⟩ root path := by
    cases items <;> cases items' <;> simp_all [SameScope, Page.find?]
  rw [Page.resolve, Page.resolve, hfind]

/-- A step behind another one. -/
lemma Together.behind {s : String} {o o' : Outcome}
    (h : Together (page.write s) (page'.write s) o o') : Together page page' o o' := by
  obtain ⟨result, text, ho, ho'⟩ := h
  exact ⟨result, s ++ text, by rw [ho, write_write], by rw [ho', write_write]⟩

/-! ### Blocks -/

/-- The rounds of a loop do not depend on the scope that the loop is in. -/
lemma rounds_together {body : Page → Outcome}
    (hbody : ∀ page page', SameScope page page' → Together page page' (body page) (body page'))
    (items : List Value) (page page' : Page) :
    Together page page' (rounds body items page) (rounds body items page') := by
  induction items generalizing page page' with
  | nil => exact together_ok
  | cons item items ih =>
    obtain ⟨result, text, ho, ho'⟩ := hbody (page.enter item) (page'.enter item) rfl
    rw [rounds, rounds, ho, ho']
    cases result with
    | error e => exact ⟨.error e, text, rfl, rfl⟩
    | ok _ => exact (ih (page.write text) (page'.write text)).behind

mutual

theorem block_together (b : Block) (page page' : Page) (h : SameScope page page') :
    Together page page' (block setting b page) (block setting b page') := by
  cases b with
  | text content span => exact together_write content
  | field path span =>
    rw [block, block, h.resolve_eq]
    cases page'.resolve setting.root path with
    | error cause => exact together_fail cause
    | ok v => exact together_write v.text
  | markdown path span =>
    rw [block, block, h.resolve_eq]
    cases page'.resolve setting.root path with
    | error cause => exact together_fail cause
    | ok v =>
      cases hv : v.text? with
      | none => simpa only [hv] using together_fail _
      | some s => simpa only [hv] using together_write _
  | conditional condition consequence alternative span =>
    rw [block, block, h.resolve_eq]
    cases page'.resolve setting.root condition with
    | error cause => exact together_fail cause
    | ok v =>
      rcases hv : v.truth? with _ | _ | _
      · simpa only [hv] using together_fail _
      · simpa only [hv] using blocks_together alternative page page' h
      · simpa only [hv] using blocks_together consequence page page' h
  | loop source body span =>
    rw [block, block, h.resolve_eq]
    cases page'.resolve setting.root source with
    | error cause => exact together_fail cause
    | ok v =>
      cases hv : v.items? with
      | none => simpa only [hv] using together_fail _
      | some items =>
        simpa only [hv] using
          rounds_together (blocks_together body) items page page'

/-- In the same scope blocks do the same. -/
theorem blocks_together (bs : List Block) (page page' : Page) (h : SameScope page page') :
    Together page page' (blocks setting bs page) (blocks setting bs page') := by
  cases bs with
  | nil => exact together_ok
  | cons b bs =>
    obtain ⟨result, text, ho, ho'⟩ := block_together b page page' h
    rw [blocks, blocks, ho, ho']
    cases result with
    | error e => exact ⟨_, text, rfl, rfl⟩
    | ok _ => exact (blocks_together bs _ _ (h.write text)).behind

end

/-! ### Blocks by their scope -/

/-- How blocks end, and what they write, in the scope of the given item or outside all loops. -/
def inScope (setting : Setting) (scope : Option Value) (bs : List Block) :
    Except Error Unit × String :=
  let o := blocks setting bs ⟨scope.toList, ""⟩
  (o.1, o.2.output)

lemma blocks_eq_inScope (bs : List Block) (page : Page) :
    blocks setting bs page =
      ((inScope setting page.items.head? bs).1,
        page.write (inScope setting page.items.head? bs).2) := by
  have hscope : SameScope page ⟨page.items.head?.toList, ""⟩ := by
    rw [SameScope]
    cases page.items <;> rfl
  obtain ⟨result, text, ho, ho'⟩ : Together _ _ (blocks setting bs _) _ :=
    blocks_together bs _ _ hscope
  simp [inScope, ho, ho', Page.write]

/-- Texts in turn, up to the first of them with which something fails. -/
def inTurn : List (Except Error Unit × String) → Except Error Unit × String
  | [] => (.ok (), "")
  | (.ok _, text) :: rest => ((inTurn rest).1, text ++ (inTurn rest).2)
  | (.error e, text) :: _ => (.error e, text)

/-- The rounds of a loop are its body in the scopes of the items, in turn. -/
theorem rounds_eq_inTurn (body : List Block) (items : List Value) (page : Page) :
    rounds (blocks setting body) items page =
      ((inTurn (items.map fun item => inScope setting (some item) body)).1,
        page.write (inTurn (items.map fun item => inScope setting (some item) body)).2) := by
  induction items generalizing page with
  | nil => simp [rounds, inTurn]
  | cons item items ih =>
    rw [rounds, blocks_eq_inScope, List.map_cons]
    have hhead : (page.enter item).items.head? = some item := rfl
    rw [hhead]
    rcases inScope setting (some item) body with ⟨e | _, text⟩
    · rfl
    · have hleave : ((page.enter item).write text).leave = page.write text := rfl
      simp only [hleave, ih, write_write, inTurn]

/-- The error of a body has its place, so a loop leaves it as it is. -/
lemma located_inTurn {body : List Block} {items : List Value} {e : Error} {text : String}
    (h : inTurn (items.map fun item => inScope setting (some item) body) = (.error e, text))
    (l : Location) : e.located l = e := by
  have hrounds : FailsWith (Error.ComesFrom setting.name faultKinds)
      (rounds (blocks setting body) items .blank) :=
    failsWith_rounds (failsWith_blocks body) items .blank
  rw [rounds_eq_inTurn, h] at hrounds
  exact (hrounds e rfl).located_eq l

/-- A loop, and the blocks behind it in the scope of the loop. -/
theorem blocks_loop {source : String} {body : List Block} {span : Span} {items : List Value}
    (h : page.resolve setting.root source = .ok (.seq items)) (bs : List Block) :
    blocks setting (.loop source body span :: bs) page =
      match inTurn (items.map fun item => inScope setting (some item) body) with
      | (.ok _, text) => blocks setting bs (page.write text)
      | (.error e, text) => (.error e, page.write text) := by
  have hloop : block setting (.loop source body span) page =
      rounds (blocks setting body) items page := by
    rw [block, h]
    rfl
  rw [blocks, hloop, rounds_eq_inTurn]
  rcases hturn : inTurn (items.map fun item => inScope setting (some item) body) with ⟨e | _, text⟩
  · simp only [located_inTurn hturn]
  · rfl

/-- **Scopes.**  On pages in the same scope blocks end in the same way and write the same text, and
of the page they change nothing else.  A loop writes what its body writes in the scopes of the items,
in turn, up to the first failure, and the blocks behind it go on in the scope of the loop. -/
theorem blocks_clean (setting : Setting) (bs : List Block) :
    (∀ page page' : Page, page.items.head? = page'.items.head? → ∃ result text,
      blocks setting bs page = (result, ⟨page.items, page.output ++ text⟩) ∧
      blocks setting bs page' = (result, ⟨page'.items, page'.output ++ text⟩)) ∧
    ∀ (source : String) (body : List Block) (span : Span) (items : List Value) (page : Page),
      page.resolve setting.root source = .ok (.seq items) →
      blocks setting (.loop source body span :: bs) page =
        match inTurn (items.map fun item => inScope setting (some item) body) with
        | (.ok _, text) => blocks setting bs ⟨page.items, page.output ++ text⟩
        | (.error e, text) => (.error e, ⟨page.items, page.output ++ text⟩) :=
  ⟨blocks_together bs, fun _ _ _ _ _ hitems => blocks_loop hitems bs⟩

/-- A loop within a loop, whose second item is absent.  Its first round is written, the error has the
place of the field, and the page is in the scope of the outer item again. -/
theorem blocks_clean_absent_item :
    let setting : Setting := ⟨.map [("rows", .seq [.string "a", .none, .string "b"])], id, "letter"⟩
    let body : List Block := [.field "this" ⟨⟨2, 0, 15⟩, ⟨2, 8, 23⟩⟩]
    let bs : List Block := [.loop "rows" body ⟨.start, ⟨2, 17, 32⟩⟩, .field "this" ⟨.start, .start⟩]
    let e : Error := { cause := .valueMissing "this", location := some ⟨"letter", 2⟩ }
    blocks setting bs ⟨[.string "outer", .int 1], "> "⟩ =
      (.error e, ⟨[.string "outer", .int 1], "> a"⟩) ∧
    ∃ text, blocks setting bs ⟨[.string "outer"], ""⟩ = (.error e, ⟨[.string "outer"], text⟩) := by
  intro setting body bs e
  have hloop : blocks setting bs ⟨[.string "outer", .int 1], "> "⟩ =
      (.error e, ⟨[.string "outer", .int 1], "> a"⟩) :=
    (blocks_clean setting [.field "this" ⟨.start, .start⟩]).2 "rows" body _
      [.string "a", .none, .string "b"] _ rfl
  obtain ⟨result, text, hfirst, hsecond⟩ := (blocks_clean setting bs).1
    ⟨[.string "outer", .int 1], "> "⟩ ⟨[.string "outer"], ""⟩ rfl
  obtain ⟨rfl, -⟩ := Prod.mk.inj (hfirst.symm.trans hloop)
  exact ⟨hloop, _, hsecond⟩

end Render
end FormLetter

/-
# Unrolled loops

A loop can be written without a loop: its body once for each item, with a key of the root for the
item in the place of `this`.  The letter stays the same if the keys are fresh, that is, if none of
them is in the root already and the body has no path through any of them (`loop_unrolled`).

The paths of the body itself change with the key, but not those inside the loops of the body: there
`this` is another item.  A loop of the body still has its source looked up for the outer item, so the
source changes like a path of the body.
-/
import FormLetter.Proofs.Dictionary
import FormLetter.Proofs.Render.Paths
import FormLetter.Proofs.Render.Scopes

namespace FormLetter

/-- The kind of the error and its place, without the detail. -/
def Error.gist (e : Error) : ErrorKind × Option Location := (e.kind, e.location)

/-! ### A key in the place of the item -/

namespace Render

/-- The path with a key of the root in the place of `this`. -/
def pathAtKey (key path : String) : String :=
  if path = "this" then key
  else
    match relative? path with
    | some rest => key ++ "." ++ rest
    | none => path

end Render

namespace Template.Block

open Render

mutual

/-- The block with a key of the root in the place of `this`, except inside loops. -/
def atKey (key : String) : Block → Block
  | text content span => text content span
  | field path span => field (pathAtKey key path) span
  | markdown path span => markdown (pathAtKey key path) span
  | conditional condition consequence alternative span =>
    conditional (pathAtKey key condition) (atKeyAll key consequence) (atKeyAll key alternative) span
  | loop source body span => loop (pathAtKey key source) body span

/-- The blocks with a key of the root in the place of `this`, except inside loops. -/
def atKeyAll (key : String) : List Block → List Block
  | [] => []
  | b :: blocks => atKey key b :: atKeyAll key blocks

end

@[simp] lemma span_atKey (key : String) (b : Block) : (atKey key b).span = b.span := by
  cases b <;> rfl

end Template.Block

namespace Render

open Template (Block Span)

/-- A key that can stand for an item of a loop over the body. -/
structure Fresh (entries : Dictionary Value) (body : List Block) (key : String) : Prop where
  /-- The key is a single segment. -/
  dotless : '.' ∉ key.toList
  /-- No key of the root is the key, or starts with it and a dot. -/
  unbound : ∀ k ∈ Dictionary.keys entries, k ≠ key ∧ ¬ key.toList ++ ['.'] <+: k.toList
  /-- No path of the body that is looked up in the root is the key or has it as its first segment. -/
  unread : ∀ path ∈ Block.rootPathsAll true body,
    path ≠ key ∧ (segments path).head? ≠ some key.toList

/-- In the root the key stands for the value: the value is under it, and no other key starts with it
and a dot. -/
structure StandsFor (root : Value) (key : String) (v : Value) : Prop where
  dotless : '.' ∉ key.toList
  get?_key : root.get? key = some v
  get?_dot : ∀ rest, root.get? (key ++ "." ++ rest) = none

variable {root root' item : Value} {key : String} {page page' : Page}

namespace StandsFor

lemma lookup_key (h : StandsFor root key item) : lookup root key = some item := by
  obtain ⟨segment, rest, hsegments⟩ := List.exists_cons_of_ne_nil (segments_ne_nil key)
  rw [lookup, hsegments, follow_cons, ← hsegments, wholeKey_segments, h.get?_key, Option.some_or]

/-- A path that starts with the key and goes on leads on from the value. -/
lemma lookup_dot (h : StandsFor root key item) (rest : String) :
    lookup root (key ++ "." ++ rest) = lookup item rest := by
  have hsegments := segments_append_dot h.dotless rest
  have hwhole : wholeKey (key.toList :: segments rest) = key ++ "." ++ rest := by
    rw [← hsegments, wholeKey_segments]
  rw [lookup, hsegments, follow_cons, hwhole, h.get?_dot, Option.none_or, String.ofList_toList,
    h.get?_key, Option.bind_some, lookup]

/-- Outside all loops the path at the key leads where the path leads for the item. -/
lemma find?_eq (h : StandsFor root' key item) (hitem : page.items.head? = some item)
    (hitems : page'.items = []) {path : String} (hagree : Agree root root' (rootPath true path)) :
    page.find? root path = page'.find? root' (pathAtKey key path) := by
  obtain ⟨items, output⟩ := page
  obtain ⟨items, rfl⟩ := List.head?_eq_some_iff.1 hitem
  obtain ⟨_, output'⟩ := page'
  obtain rfl := hitems
  simp only [Page.find?, pathAtKey]
  by_cases hthis : path = "this"
  · rw [if_pos hthis, if_pos hthis, h.lookup_key]
  · rw [if_neg hthis, if_neg hthis]
    cases hrelative : relative? path with
    | some rest => exact (h.lookup_dot rest).symm
    | none => exact lookup_congr (hagree path (by simp [rootPath, NamesItem, hthis, hrelative]))

/-- A path and the path at the key either both have the same value, or both have none. -/
lemma resolve_cases (h : StandsFor root' key item) (hitem : page.items.head? = some item)
    (hitems : page'.items = []) {path : String} (hagree : Agree root root' (rootPath true path)) :
    (∃ v, page.resolve root path = .ok v ∧ page'.resolve root' (pathAtKey key path) = .ok v) ∨
    page.resolve root path = .error (.valueMissing path) ∧
      page'.resolve root' (pathAtKey key path) = .error (.valueMissing (pathAtKey key path)) := by
  rw [Page.resolve, Page.resolve, h.find?_eq hitem hitems hagree]
  cases page'.find? root' (pathAtKey key path) with
  | none => exact Or.inr ⟨rfl, rfl⟩
  | some v =>
    cases hv : v.isNone
    · exact Or.inl ⟨v, by simp [hv], by simp [hv]⟩
    · exact Or.inr ⟨by simp [hv], by simp [hv]⟩

end StandsFor

/-! ### What is seen of a step -/

/-- How a step ends, with the gist of its error, and the text on the page. -/
def seen (o : Outcome) : Except (ErrorKind × Option Location) Unit × String :=
  (o.1.mapError Error.gist, o.2.output)

lemma gist_located {e e' : Error} (h : e.gist = e'.gist) (l : Location) :
    (e.located l).gist = (e'.located l).gist := by
  obtain ⟨hkind, hlocation⟩ := Prod.mk.inj h
  rw [Error.gist, Error.gist, Error.located, Error.located, hlocation]
  exact congrArg (·, _) hkind

/-- Two steps of which the same is seen. -/
lemma seen_cases {o o' : Outcome} (h : seen o = seen o') :
    (∃ page page', o = (.ok (), page) ∧ o' = (.ok (), page') ∧ page.output = page'.output) ∨
    ∃ e e' page page', o = (.error e, page) ∧ o' = (.error e', page') ∧ e.gist = e'.gist ∧
      page.output = page'.output := by
  obtain ⟨result, page⟩ := o
  obtain ⟨result', page'⟩ := o'
  obtain ⟨hresult, houtput⟩ := Prod.mk.inj h
  rcases result with e | _ <;> rcases result' with e' | _ <;>
    simp only [Except.mapError, Except.error.injEq, reduceCtorEq] at hresult
  · exact Or.inr ⟨e, e', page, page', rfl, rfl, hresult, houtput⟩
  · exact Or.inl ⟨page, page', rfl, rfl, houtput⟩

lemma mapError_letter (setting : Setting) (bs : List Block) :
    (letter setting bs).mapError Error.gist =
      (seen (blocks setting bs .blank)).1.map fun _ => (seen (blocks setting bs .blank)).2 := by
  rw [letter]
  rcases blocks setting bs .blank with ⟨_ | _, page⟩ <;> rfl

/-! ### The body in the scope of an item, and at a key outside all loops -/

/-- One page is in a loop over the item, the other one outside all loops, with the same text. -/
structure Facing (item : Value) (page page' : Page) : Prop where
  head_items : page.items.head? = some item
  items_nil : page'.items = []
  output_eq : page.output = page'.output

namespace Facing

lemma seen_write (h : Facing item page page') (s : String) :
    seen (.ok (), page.write s) = seen (.ok (), page'.write s) := by
  simp only [seen, Page.write, h.output_eq]

/-- Two steps that fail for causes of one kind. -/
lemma seen_fail (h : Facing item page page') {cause cause' : Cause}
    (hkind : cause.kind = cause'.kind) : seen (fail cause page) = seen (fail cause' page') := by
  simp only [seen, fail, Except.mapError, Error.gist, Error.kind, hkind, h.output_eq]

end Facing

variable {markdown : String → String} {name : String}

lemma inScope_congr {body : List Block} (h : Agree root root' (Block.rootPathsAll true body))
    (item : Value) :
    inScope ⟨root, markdown, name⟩ (some item) body =
      inScope ⟨root', markdown, name⟩ (some item) body := by
  have hblocks : blocks ⟨root, markdown, name⟩ body ⟨[item], ""⟩ = _ := blocks_congr body _ h
  simp only [inScope, Option.toList_some, hblocks]

mutual

theorem seen_block (hkey : StandsFor root' key item) (b : Block) (page page' : Page)
    (hpages : Facing item page page') (hagree : Agree root root' (b.rootPaths true)) :
    seen (block ⟨root, markdown, name⟩ b page) =
      seen (block ⟨root', markdown, name⟩ (b.atKey key) page') := by
  have hoption := fun {path} (h : Agree root root' (rootPath true path)) =>
    hkey.resolve_cases hpages.head_items hpages.items_nil h
  cases b with
  | text content span => exact hpages.seen_write content
  | field path span =>
    rw [Block.atKey, block, block]
    rcases hoption hagree with ⟨v, hv, hv'⟩ | ⟨hnone, hnone'⟩
    · rw [hv, hv']
      exact hpages.seen_write v.text
    · rw [hnone, hnone']
      exact hpages.seen_fail rfl
  | markdown path span =>
    rw [Block.atKey, block, block]
    rcases hoption hagree with ⟨v, hv, hv'⟩ | ⟨hnone, hnone'⟩
    · rw [hv, hv']
      cases htext : v.text? with
      | none =>
        simp only [htext]
        exact hpages.seen_fail rfl
      | some s => simpa only [htext] using hpages.seen_write (markdown s)
    · rw [hnone, hnone']
      exact hpages.seen_fail rfl
  | conditional condition consequence alternative span =>
    rw [Block.atKey, block, block]
    rcases hoption hagree.left.left with ⟨v, hv, hv'⟩ | ⟨hnone, hnone'⟩
    · rw [hv, hv']
      rcases htruth : v.truth? with _ | _ | _
      · simp only [htruth]
        exact hpages.seen_fail rfl
      · simpa only [htruth] using seen_blocks hkey alternative page page' hpages hagree.right
      · simpa only [htruth] using
          seen_blocks hkey consequence page page' hpages hagree.left.right
    · rw [hnone, hnone']
      exact hpages.seen_fail rfl
  | loop source body span =>
    rw [Block.atKey, block, block]
    rcases hoption hagree.left with ⟨v, hv, hv'⟩ | ⟨hnone, hnone'⟩
    · rw [hv, hv']
      cases hitems : v.items? with
      | none =>
        simp only [hitems]
        exact hpages.seen_fail rfl
      | some items =>
        -- the rounds of the inner loop are in scopes of their own
        simp only [hitems, rounds_eq_inTurn, inScope_congr hagree.right, seen, Page.write,
          hpages.output_eq]
    · rw [hnone, hnone']
      exact hpages.seen_fail rfl

/-- In the scope of an item the same is seen of the blocks as outside all loops of the blocks at a
key that stands for the item. -/
theorem seen_blocks (hkey : StandsFor root' key item) (bs : List Block) (page page' : Page)
    (hpages : Facing item page page') (hagree : Agree root root' (Block.rootPathsAll true bs)) :
    seen (blocks ⟨root, markdown, name⟩ bs page) =
      seen (blocks ⟨root', markdown, name⟩ (Block.atKeyAll key bs) page') := by
  cases bs with
  | nil => simp [Block.atKeyAll, blocks, seen, hpages.output_eq]
  | cons b bs =>
    have hseen : seen (block ⟨root, markdown, name⟩ b page) = _ :=
      seen_block hkey b page page' hpages hagree.left
    have hitems : (block ⟨root, markdown, name⟩ b page).2.items = page.items := items_block b page
    have hitems' : (block ⟨root', markdown, name⟩ (b.atKey key) page').2.items = page'.items :=
      items_block (b.atKey key) page'
    rw [Block.atKeyAll, blocks, blocks, Block.span_atKey]
    rcases seen_cases hseen with ⟨next, next', ho, ho', houtput⟩ |
      ⟨e, e', next, next', ho, ho', hgist, houtput⟩
    · rw [ho] at hitems ⊢
      rw [ho'] at hitems' ⊢
      have hnext : Facing item next next' :=
        ⟨hitems ▸ hpages.head_items, hitems'.trans hpages.items_nil, houtput⟩
      exact seen_blocks hkey bs next next' hnext hagree.right
    · rw [ho, ho']
      simp only [seen, Except.mapError, gist_located hgist, houtput]

end

/-! ### The whole loop -/

/-- What is seen of a loop. -/
lemma seen_loop {source : String} {body : List Block} {span : Span} {items : List Value}
    (h : page.resolve root source = .ok (.seq items)) :
    seen (blocks ⟨root, markdown, name⟩ [.loop source body span] page) =
      ((inTurn (items.map fun item => inScope ⟨root, markdown, name⟩ (some item) body)).1.mapError
          Error.gist,
        page.output ++
          (inTurn (items.map fun item => inScope ⟨root, markdown, name⟩ (some item) body)).2) := by
  rw [blocks_loop h]
  generalize inTurn (items.map fun item => inScope ⟨root, markdown, name⟩ (some item) body) = turn
  obtain ⟨_ | _, text⟩ := turn <;> rfl

/-- What is seen of the body at a key. -/
lemma seen_atKeyAll {body : List Block} (hkey : StandsFor root' key item)
    (hagree : Agree root root' (Block.rootPathsAll true body)) (hitems : page'.items = []) :
    seen (blocks ⟨root', markdown, name⟩ (Block.atKeyAll key body) page') =
      ((inScope ⟨root, markdown, name⟩ (some item) body).1.mapError Error.gist,
        page'.output ++ (inScope ⟨root, markdown, name⟩ (some item) body).2) := by
  have hpages : Facing item ⟨[item], page'.output⟩ page' := ⟨rfl, hitems, rfl⟩
  rw [← seen_blocks hkey body _ page' hpages hagree, blocks_eq_inScope]
  rfl

/-- Of the bodies at the keys, one behind the other, the same is seen as of the loop. -/
lemma seen_unrolled {body : List Block} (hagree : Agree root root' (Block.rootPathsAll true body))
    {bindings : List (String × Value)} (hkeys : ∀ b ∈ bindings, StandsFor root' b.1 b.2)
    (hitems : page'.items = []) :
    seen (blocks ⟨root', markdown, name⟩ (bindings.flatMap fun b => Block.atKeyAll b.1 body) page') =
      ((inTurn ((bindings.map Prod.snd).map fun item =>
          inScope ⟨root, markdown, name⟩ (some item) body)).1.mapError Error.gist,
        page'.output ++ (inTurn ((bindings.map Prod.snd).map fun item =>
          inScope ⟨root, markdown, name⟩ (some item) body)).2) := by
  induction bindings generalizing page' with
  | nil => simp [blocks, inTurn, seen, Except.mapError]
  | cons binding bindings ih =>
    have hfirst : seen (blocks ⟨root', markdown, name⟩ _ page') = _ :=
      seen_atKeyAll (hkeys binding List.mem_cons_self) hagree hitems
    have hitems' : (blocks ⟨root', markdown, name⟩ (Block.atKeyAll binding.1 body) page').2.items =
        page'.items := items_blocks _ page'
    have hrest : ∀ b ∈ bindings, StandsFor root' b.1 b.2 := fun b hb =>
      hkeys b (List.mem_cons_of_mem binding hb)
    rw [List.flatMap_cons, blocks_append, List.map_cons, List.map_cons]
    generalize blocks ⟨root', markdown, name⟩ (Block.atKeyAll binding.1 body) page' = o
      at hfirst hitems' ⊢
    generalize inScope ⟨root, markdown, name⟩ (some binding.2) body = first at hfirst ⊢
    obtain ⟨e' | _, next⟩ := o <;> obtain ⟨e | _, text⟩ := first <;>
      simp only [seen, Except.mapError, Prod.mk.injEq, reduceCtorEq, false_and, Except.error.injEq,
        true_and] at hfirst
    · simp only [seen, inTurn, Except.mapError, hfirst.1, hfirst.2]
    · simp only [ih hrest (hitems'.trans hitems), inTurn, hfirst, String.append_assoc]

variable {entries : Dictionary Value} {body : List Block} {bindings : List (String × Value)}

/-- Fresh keys make no difference for the paths of the body. -/
lemma agree_extend (hfresh : ∀ key ∈ Dictionary.keys bindings, Fresh entries body key) :
    Agree (.map entries) (.map (Dictionary.extend bindings entries))
      (Block.rootPathsAll true body) := by
  intro path hpath k hk
  refine (Dictionary.get?_extend_of_notMem fun hmem => ?_).symm
  obtain ⟨hne, hhead⟩ := (hfresh k hmem).unread path hpath
  rcases List.mem_pair.1 hk with rfl | rfl
  · exact hne rfl
  · rw [String.toList_ofList] at hhead
    exact hhead (head_parts '.' path.toList)

/-- A fresh key stands for the value that it is bound to. -/
lemma standsFor_extend (hnodup : (Dictionary.keys bindings).Nodup)
    (hfresh : ∀ key ∈ Dictionary.keys bindings, Fresh entries body key) {b : String × Value}
    (hb : b ∈ bindings) :
    StandsFor (.map (Dictionary.extend bindings entries)) b.1 b.2 := by
  have hkey := hfresh b.1 (List.mem_map_of_mem hb)
  refine ⟨hkey.dotless, Dictionary.get?_extend_of_mem hnodup hb, fun rest => ?_⟩
  -- the fresh keys have no dots, and those of the root do not start with this one
  have hbindings : b.1 ++ "." ++ rest ∉ Dictionary.keys bindings := by
    intro hmem
    exact (hfresh _ hmem).dotless (by simp)
  have hentries : b.1 ++ "." ++ rest ∉ Dictionary.keys entries := by
    intro hmem
    exact (hkey.unbound _ hmem).2 ⟨rest.toList, by simp⟩
  rw [Value.get?, Dictionary.get?_extend_of_notMem hbindings, Dictionary.get?_eq_none hentries]

/-- **Unrolling.**  A loop over the values of some bindings gives the same letter as its body at each
of their keys, one behind the other, if the bindings are added to the root and the keys are fresh.
If one of the two letters fails, so does the other one, with an error of the same kind at the same
place. -/
theorem loop_unrolled {source : String} (span : Span) (markdown : String → String) (name : String)
    (hitems : Page.blank.resolve (.map entries) source = .ok (.seq (bindings.map Prod.snd)))
    (hnodup : (Dictionary.keys bindings).Nodup)
    (hfresh : ∀ key ∈ Dictionary.keys bindings, Fresh entries body key) :
    (letter ⟨.map entries, markdown, name⟩ [.loop source body span]).mapError Error.gist =
      (letter ⟨.map (Dictionary.extend bindings entries), markdown, name⟩
        ((Dictionary.keys bindings).flatMap fun key => Block.atKeyAll key body)).mapError
          Error.gist := by
  have hkeys : (Dictionary.keys bindings).flatMap (fun key => Block.atKeyAll key body) =
      bindings.flatMap fun b => Block.atKeyAll b.1 body := List.flatMap_map _ _ _
  have hstand : ∀ b ∈ bindings, StandsFor (.map (Dictionary.extend bindings entries)) b.1 b.2 :=
    fun b hb => standsFor_extend hnodup hfresh hb
  rw [mapError_letter, mapError_letter, hkeys, seen_loop hitems,
    seen_unrolled (agree_extend hfresh) hstand rfl]

/-- Two rows, the second one without tags, and a body that is a loop within a condition.  The source
of the inner loop changes with the key, its body does not. -/
theorem loop_unrolled_rows :
    let span : Span := ⟨.start, .start⟩
    let inner : List Block := [.field "this" span, .field "sep" span]
    let body : List Block := [.field "this.name" span,
      .conditional "this.tags" [.loop "this.tags" inner span] [.text "-" span] span]
    let entries := [("rows", Value.seq
        [.map [("name", .string "x"), ("tags", .seq [.string "1", .string "2"])],
          .map [("name", .string "y"), ("tags", .seq [])]]),
      ("sep", .string ";")]
    let bindings := [("k1", Value.map
        [("name", .string "x"), ("tags", .seq [.string "1", .string "2"])]),
      ("k2", .map [("name", .string "y"), ("tags", .seq [])])]
    let unrolled : List Block := [.field "k1.name" span,
      .conditional "k1.tags" [.loop "k1.tags" inner span] [.text "-" span] span,
      .field "k2.name" span,
      .conditional "k2.tags" [.loop "k2.tags" inner span] [.text "-" span] span]
    (Dictionary.keys bindings).Nodup ∧
    (∀ key ∈ Dictionary.keys bindings, Fresh entries body key) ∧
    (letter ⟨.map entries, id, "letter"⟩ [.loop "rows" body span]).mapError Error.gist =
      (letter ⟨.map (Dictionary.extend bindings entries), id, "letter"⟩ unrolled).mapError
        Error.gist ∧
    letter ⟨.map entries, id, "letter"⟩ [.loop "rows" body span] = .ok "x1;2;y-" := by
  intro span inner body entries bindings unrolled
  have hnodup : (Dictionary.keys bindings).Nodup := by decide
  have hkeys : ∀ key ∈ Dictionary.keys bindings, key = "k1" ∨ key = "k2" := by decide
  have hfresh : ∀ key ∈ Dictionary.keys bindings, Fresh entries body key := by
    intro key hkey
    rcases hkeys key hkey with rfl | rfl <;> exact ⟨by decide, by decide, by decide⟩
  exact ⟨hnodup, hfresh, loop_unrolled span id "letter" rfl hnodup hfresh, rfl⟩

end Render
end FormLetter

/-
# The keys that a letter reads

A letter looks only at the keys of its root that the paths of its blocks name.  Inside a loop `this`
and what starts with `this.` are about the item of the loop; every other path is looked up in the
root, where it can find a value under two keys only: the whole path and its part before the first
dot.  Two roots that have the same values under these keys, or none, give the same letter or the same
error (`letter_reads_keys`).
-/
import FormLetter.Proofs.Render.Writing

namespace FormLetter

namespace Render

/-- Inside a loop the path is about the item of the loop. -/
def NamesItem (path : String) : Prop := path = "this" ∨ (relative? path).isSome = true

instance (path : String) : Decidable (NamesItem path) :=
  inferInstanceAs (Decidable (path = "this" ∨ (relative? path).isSome = true))

/-- The keys under which a path can find a value in the root: the path, and its part before the first
dot, which is all of it if there is no dot. -/
def rootKeys (path : String) : List String :=
  [path, String.ofList (path.toList.takeWhile (· ≠ '.'))]

/-- The path, unless it is about the item of a loop. -/
def rootPath (inLoop : Bool) (path : String) : List String :=
  if inLoop ∧ NamesItem path then [] else [path]

end Render

namespace Template.Block

open Render

mutual

/-- The paths of a block that are looked up in the root. -/
def rootPaths (inLoop : Bool) : Block → List String
  | text _ _ => []
  | field path _ => rootPath inLoop path
  | markdown path _ => rootPath inLoop path
  | conditional condition consequence alternative _ =>
    rootPath inLoop condition ++ rootPathsAll inLoop consequence ++ rootPathsAll inLoop alternative
  | loop source body _ => rootPath inLoop source ++ rootPathsAll true body

/-- The paths of blocks that are looked up in the root. -/
def rootPathsAll (inLoop : Bool) : List Block → List String
  | [] => []
  | b :: blocks => rootPaths inLoop b ++ rootPathsAll inLoop blocks

end

end Template.Block

namespace Render

open Template (Block)

/-- The two roots have the same values under the keys that the paths name. -/
def Agree (root root' : Value) (paths : List String) : Prop :=
  ∀ path ∈ paths, ∀ key ∈ rootKeys path, root.get? key = root'.get? key

variable {root root' : Value}

lemma Agree.left {paths paths' : List String} (h : Agree root root' (paths ++ paths')) :
    Agree root root' paths :=
  fun path hpath => h path (List.mem_append_left _ hpath)

lemma Agree.right {paths paths' : List String} (h : Agree root root' (paths ++ paths')) :
    Agree root root' paths' :=
  fun path hpath => h path (List.mem_append_right _ hpath)

/-! ### A single path -/

lemma head_parts (separator : Char) (cs : List Char) :
    (Text.parts separator cs).head? = some (cs.takeWhile (· ≠ separator)) := by
  induction cs with
  | nil => rfl
  | cons c cs ih =>
    by_cases hc : c = separator
    · simp [Text.parts, hc]
    · obtain ⟨parts, hparts⟩ := List.head?_eq_some_iff.1 ih
      simp [Text.parts, hc, hparts]

/-- The segments of a path, as one key, are the path. -/
@[simp] lemma wholeKey_segments (path : String) : wholeKey (segments path) = path := by
  rw [wholeKey, segments, Text.join_parts, String.ofList_toList]

/-- A path is looked up under two keys only; all further look-ups are in the value that was found
under the second one. -/
theorem lookup_congr {path : String} (h : ∀ key ∈ rootKeys path, root.get? key = root'.get? key) :
    lookup root path = lookup root' path := by
  obtain ⟨rest, hrest⟩ := List.head?_eq_some_iff.1 (head_parts '.' path.toList)
  have hpath := h path (by simp [rootKeys])
  have hhead := h _ (by simp [rootKeys] : String.ofList (path.toList.takeWhile (· ≠ '.')) ∈ _)
  rw [← wholeKey_segments path] at hpath
  rw [lookup, lookup]
  rw [segments, hrest] at hpath ⊢
  cases rest with
  | nil => exact hpath
  | cons next rest => rw [follow, follow, hpath, hhead]

/-- Is the page within a loop? -/
def Page.inLoop (page : Page) : Bool := !page.items.isEmpty

lemma resolve_congr {page : Page} {path : String}
    (h : Agree root root' (rootPath page.inLoop path)) :
    page.resolve root path = page.resolve root' path := by
  have hfind : page.find? root path = page.find? root' path := by
    obtain ⟨_ | ⟨item, items⟩, output⟩ := page
    · exact lookup_congr (h path (by simp [rootPath, Page.inLoop]))
    · simp only [Page.find?]
      split_ifs with hthis
      · rfl
      · cases hrelative : relative? path with
        | some rest => rfl
        | none =>
          refine lookup_congr (h path ?_)
          simp [rootPath, Page.inLoop, NamesItem, hthis, hrelative]
  rw [Page.resolve, Page.resolve, hfind]

/-! ### Blocks -/

lemma rounds_congr {body body' : Page → Outcome}
    (h : ∀ page, page.inLoop = true → body page = body' page) (items : List Value) (page : Page) :
    rounds body items page = rounds body' items page := by
  induction items generalizing page with
  | nil => rfl
  | cons item items ih =>
    rw [rounds, rounds, h _ rfl]
    rcases body' (page.enter item) with ⟨_ | _, page'⟩
    · rfl
    · exact ih page'.leave

variable {markdown : String → String} {name : String}

mutual

theorem block_congr (b : Block) (page : Page) (h : Agree root root' (b.rootPaths page.inLoop)) :
    block ⟨root, markdown, name⟩ b page = block ⟨root', markdown, name⟩ b page := by
  cases b with
  | text content span => rfl
  | field path span => simp only [block, resolve_congr h]
  | markdown path span => simp only [block, resolve_congr h]
  | conditional condition consequence alternative span =>
    simp only [block, resolve_congr h.left.left, blocks_congr consequence page h.left.right,
      blocks_congr alternative page h.right]
  | loop source body span =>
    have hbody : ∀ page' : Page, page'.inLoop = true →
        blocks ⟨root, markdown, name⟩ body page' = blocks ⟨root', markdown, name⟩ body page' :=
      fun page' hloop => blocks_congr body page' (hloop ▸ h.right)
    simp only [block, resolve_congr h.left, rounds_congr hbody]

theorem blocks_congr (bs : List Block) (page : Page)
    (h : Agree root root' (Block.rootPathsAll page.inLoop bs)) :
    blocks ⟨root, markdown, name⟩ bs page = blocks ⟨root', markdown, name⟩ bs page := by
  cases bs with
  | nil => rfl
  | cons b bs =>
    have hitems : (block ⟨root', markdown, name⟩ b page).2.items = page.items := items_block b page
    rw [blocks, blocks, block_congr b page h.left]
    generalize block ⟨root', markdown, name⟩ b page = o at hitems
    obtain ⟨_ | _, page'⟩ := o
    · rfl
    · -- the loops that are running are the same behind the block as in front of it
      have hloop : page'.inLoop = page.inLoop := by rw [Page.inLoop, hitems, Page.inLoop]
      exact blocks_congr bs page' (hloop ▸ h.right)

end

/-! ### Keys that are about the item of a loop -/

lemma isSome_relative?_iff {path : String} :
    (relative? path).isSome = true ↔ ∃ rest, path.toList = "this".toList ++ '.' :: rest := by
  rw [relative?]
  split
  · next rest h => exact iff_of_true rfl ⟨rest, h⟩
  · next h => exact iff_of_false (by simp) fun ⟨rest, hrest⟩ => h rest hrest

/-- A path is about the item of a loop if what stands before its first dot is `this`. -/
lemma namesItem_iff {path : String} :
    NamesItem path ↔ path.toList.takeWhile (· ≠ '.') = "this".toList := by
  constructor
  · rintro (rfl | h)
    · decide
    · obtain ⟨rest, hrest⟩ := isSome_relative?_iff.1 h
      rw [hrest]
      rfl
  · intro h
    have hpath := List.takeWhile_append_dropWhile (p := (· ≠ '.')) (l := path.toList)
    have hdot := List.head?_dropWhile_not (· ≠ '.') path.toList
    rw [h] at hpath
    cases hrest : path.toList.dropWhile (· ≠ '.') with
    | nil =>
      rw [hrest, List.append_nil] at hpath
      exact Or.inl (String.toList_inj.1 hpath.symm)
    | cons c rest =>
      rw [hrest] at hpath hdot
      obtain rfl : c = '.' := by simpa using hdot
      exact Or.inr (isSome_relative?_iff.2 ⟨rest, hpath.symm⟩)

/-- None of the keys of a path is about the item of a loop if the path is not. -/
lemma not_namesItem_of_mem_rootKeys {path key : String} (h : ¬ NamesItem path)
    (hkey : key ∈ rootKeys path) : ¬ NamesItem key := by
  rcases List.mem_pair.1 hkey with rfl | rfl
  · exact h
  · rw [namesItem_iff] at h ⊢
    rwa [String.toList_ofList, List.takeWhile_idem]

/-- **Keys.**  Two roots that have the same values under the keys that the paths of some blocks name
in the root give the same letter or the same error.  In particular, if `this` is used in loops only,
the letter does not depend on what the root has under a key that would be about an item there. -/
theorem letter_reads_keys (bs : List Block) (markdown : String → String) (name : String) :
    (∀ root root' : Value, Agree root root' (Block.rootPathsAll false bs) →
      letter ⟨root, markdown, name⟩ bs = letter ⟨root', markdown, name⟩ bs) ∧
    ((∀ path ∈ Block.rootPathsAll false bs, ¬ NamesItem path) →
      ∀ entries key value, NamesItem key →
        letter ⟨.map (Dictionary.insert key value entries), markdown, name⟩ bs =
          letter ⟨.map entries, markdown, name⟩ bs) := by
  have hletter : ∀ root root' : Value, Agree root root' (Block.rootPathsAll false bs) →
      letter ⟨root, markdown, name⟩ bs = letter ⟨root', markdown, name⟩ bs := by
    intro root root' h
    rw [letter, letter, blocks_congr bs .blank h]
  refine ⟨hletter, fun hpaths entries key value hkey => hletter _ _ ?_⟩
  intro path hpath other hother
  have hne : key ≠ other := by
    rintro rfl
    exact not_namesItem_of_mem_rootKeys (hpaths path hpath) hother hkey
  rw [Value.get?, Value.get?, Dictionary.get?_insert, if_neg hne]

/-- A loop over `rows` that uses `this.a` and `user.name`.  The letter reads the keys `rows`,
`user.name` and `user` of its root, but not `this.a`, nor the key `a` that stands beside them. -/
theorem letter_reads_keys_loop :
    let span : Template.Span := ⟨.start, .start⟩
    let bs : List Block := [.loop "rows" [.field "this.a" span, .field "user.name" span] span]
    let entries := [("rows", Value.seq [.map [("a", .string "x")], .map [("a", .string "y")]]),
      ("user", .map [("name", .string "!")])]
    Agree (.map (("a", .none) :: entries)) (.map entries) (Block.rootPathsAll false bs) ∧
    letter ⟨.map (("a", .none) :: entries), id, "letter"⟩ bs =
      letter ⟨.map entries, id, "letter"⟩ bs ∧
    letter ⟨.map (Dictionary.insert "this.a" (.bool true) entries), id, "letter"⟩ bs =
      letter ⟨.map entries, id, "letter"⟩ bs ∧
    letter ⟨.map entries, id, "letter"⟩ bs = .ok "x!y!" := by
  intro span bs entries
  have hpaths : Block.rootPathsAll false bs = ["rows", "user.name"] := by decide
  have hagree : Agree (.map (("a", .none) :: entries)) (.map entries) ["rows", "user.name"] := by
    intro path hpath key hkey
    rcases List.mem_pair.1 hpath with rfl | rfl <;> rcases List.mem_pair.1 hkey with rfl | rfl <;>
      rfl
  refine ⟨hpaths ▸ hagree, (letter_reads_keys bs id "letter").1 _ _ (hpaths ▸ hagree),
    (letter_reads_keys bs id "letter").2 ?_ entries "this.a" _ (by decide), rfl⟩
  rw [hpaths]
  decide

end Render
end FormLetter

/-
# Where a path leads

A key may contain dots, so a path with several segments can be read in several ways: some segments
lead from map to map, one at a time, and all others together are one key.  A look-up finds the value
for the smallest number of segments that lead on, that is, in the outermost map that has the rest of
the path as a key (`follow_eq_some_iff`).  It does not go back: if no map on the way has such a key,
there is no value at the path.

In a letter a value that is absent counts as none, and the look-up starts from the root or, for a
path about the item of a loop, from that item (`lookup_shallowest`).
-/
import FormLetter.Proofs.Render.Keys

namespace FormLetter

namespace Text

/-! ### Parts of a text -/

variable {separator : Char} {cs : List Char}

/-- The parts of a text contain no separator. -/
lemma notMem_of_mem_parts {part : List Char} (h : part ∈ parts separator cs) : separator ∉ part := by
  induction cs generalizing part with
  | nil =>
    obtain rfl := List.mem_singleton.1 h
    exact List.not_mem_nil
  | cons c cs ih =>
    obtain ⟨first, rest, hparts⟩ := List.exists_cons_of_ne_nil (parts_ne_nil separator cs)
    rw [hparts] at ih
    by_cases hc : c = separator
    · simp only [parts, hc, if_true, hparts, List.mem_cons] at h
      rcases h with rfl | h
      · exact List.not_mem_nil
      · exact ih (List.mem_cons.2 h)
    · simp only [parts, hc, if_false, hparts, List.mem_cons] at h
      rcases h with rfl | h
      · exact List.mem_cons.not.2 (not_or.2 ⟨Ne.symm hc, ih List.mem_cons_self⟩)
      · exact ih (List.mem_cons_of_mem _ h)

/-- The first part of a text reaches to the first separator. -/
lemma parts_append_separator {part : List Char} (h : separator ∉ part) (cs : List Char) :
    parts separator (part ++ separator :: cs) = part :: parts separator cs := by
  induction part with
  | nil => simp [parts]
  | cons c part ih =>
    obtain ⟨hc, hpart⟩ := not_or.1 (List.mem_cons.not.1 h)
    rw [List.cons_append, parts, if_neg (Ne.symm hc), ih hpart]

end Text

namespace Render

/-! ### Segments -/

lemma segments_ne_nil (path : String) : segments path ≠ [] := Text.parts_ne_nil _ _

/-- A key without dots is the first segment of each path that goes on behind it. -/
lemma segments_append_dot {key : String} (h : '.' ∉ key.toList) (rest : String) :
    segments (key ++ "." ++ rest) = key.toList :: segments rest := by
  have hlist : (key ++ "." ++ rest).toList = key.toList ++ '.' :: rest.toList := by simp
  rw [segments, hlist, Text.parts_append_separator h]
  rfl

/-- All segments together are tried as one key; if there is none, the first one leads on. -/
lemma follow_cons (v : Value) (segment : List Char) (rest : List (List Char)) :
    follow v (segment :: rest) =
      (v.get? (wholeKey (segment :: rest))).or
        ((v.get? (String.ofList segment)).bind (follow · rest)) := by
  cases rest with
  | nil =>
    have hnone : (v.get? (String.ofList segment)).bind (follow · []) = none := by
      cases v.get? (String.ofList segment) <;> rfl
    rw [hnone, Option.or_none]
    rfl
  | cons next rest =>
    rw [follow]
    cases v.get? (wholeKey (segment :: next :: rest)) <;> rfl

/-! ### The outermost map that has the rest of the path as a key -/

/-- The value that segments lead to, each of which is the key of an entry in the map before it. -/
def walk (v : Value) : List (List Char) → Option Value
  | [] => some v
  | segment :: rest => (v.get? (String.ofList segment)).bind (walk · rest)

/-- The entry of which all segments but the first `n` are the key, in the map that the first `n`
segments lead to. -/
def entryBehind (v : Value) (segments : List (List Char)) (n : Nat) : Option Value :=
  (walk v (segments.take n)).bind (Value.get? (wholeKey (segments.drop n)))

lemma entryBehind_zero (v : Value) (segments : List (List Char)) :
    entryBehind v segments 0 = v.get? (wholeKey segments) := rfl

lemma entryBehind_succ (v : Value) (segment : List Char) (rest : List (List Char)) (n : Nat) :
    entryBehind v (segment :: rest) (n + 1) =
      (v.get? (String.ofList segment)).bind (entryBehind · rest n) := by
  rw [entryBehind, List.take_succ_cons, List.drop_succ_cons, walk]
  cases v.get? (String.ofList segment) <;> rfl

/-- A look-up finds the entry behind the smallest number of segments that there is one behind. -/
theorem follow_eq_some_iff (v : Value) (segments : List (List Char)) (x : Value) :
    follow v segments = some x ↔
      ∃ n < segments.length,
        entryBehind v segments n = some x ∧ ∀ m < n, entryBehind v segments m = none := by
  induction segments generalizing v with
  | nil => simp [follow]
  | cons segment rest ih =>
    rw [follow_cons, List.length_cons]
    cases hwhole : v.get? (wholeKey (segment :: rest)) with
    | some found =>
      -- no segment has to lead on, and this is the smallest number that there is
      rw [Option.some_or]
      constructor
      · rintro ⟨rfl⟩
        exact ⟨0, Nat.succ_pos _, hwhole, fun m hm => absurd hm (Nat.not_lt_zero m)⟩
      · rintro ⟨n, -, hn, hfirst⟩
        cases n with
        | zero => exact hwhole.symm.trans hn
        | succ n =>
          have hzero := hfirst 0 (Nat.succ_pos n)
          rw [entryBehind_zero, hwhole] at hzero
          exact absurd hzero (by simp)
    | none =>
      rw [Option.none_or]
      cases hinner : v.get? (String.ofList segment) with
      | none =>
        refine iff_of_false (by simp) ?_
        rintro ⟨n, -, hn, -⟩
        cases n with
        | zero => simp [entryBehind_zero, hwhole] at hn
        | succ n => simp [entryBehind_succ, hinner] at hn
      | some inner =>
        -- the first segment leads on to `inner`, so one more segment counts than from there
        have hsucc : ∀ n, entryBehind v (segment :: rest) (n + 1) = entryBehind inner rest n :=
          fun n => by rw [entryBehind_succ, hinner, Option.bind_some]
        rw [Option.bind_some, ih inner]
        constructor
        · rintro ⟨n, hn, hx, hfirst⟩
          refine ⟨n + 1, Nat.succ_lt_succ hn, (hsucc n).trans hx, fun m hm => ?_⟩
          cases m with
          | zero => exact hwhole
          | succ m => exact (hsucc m).trans (hfirst m (Nat.lt_of_succ_lt_succ hm))
        · rintro ⟨n, hn, hx, hfirst⟩
          cases n with
          | zero => simp [entryBehind_zero, hwhole] at hx
          | succ n =>
            exact ⟨n, Nat.lt_of_succ_lt_succ hn, (hsucc n).symm.trans hx,
              fun m hm => (hsucc m).symm.trans (hfirst (m + 1) (Nat.succ_lt_succ hm))⟩

/-- A look-up finds nothing if there is no entry behind any number of segments. -/
lemma follow_eq_none_iff (v : Value) (segments : List (List Char)) :
    follow v segments = none ↔ ∀ n < segments.length, entryBehind v segments n = none := by
  induction segments generalizing v with
  | nil => simp [follow]
  | cons segment rest ih =>
    rw [follow_cons, Option.or_eq_none_iff, List.length_cons, Nat.forall_lt_succ_left]
    refine and_congr Iff.rfl ?_
    simp only [entryBehind_succ]
    cases v.get? (String.ofList segment) with
    | none => simp
    | some inner => simpa using ih inner

/-! ### The value at a path in a letter -/

variable {page : Page} {root v x : Value} {path : String}

lemma isNone_eq_true_iff : v.isNone = true ↔ v = .none := by
  cases v <;> simp [Value.isNone]

lemma resolve_eq_ok_iff :
    page.resolve root path = .ok x ↔ page.find? root path = some x ∧ x ≠ .none := by
  rw [Page.resolve]
  cases page.find? root path with
  | none => simp
  | some v =>
    rw [Option.some.injEq]
    dsimp only
    split_ifs with hnone
    · refine iff_of_false (by simp) ?_
      rintro ⟨rfl, hne⟩
      exact hne (isNone_eq_true_iff.1 hnone)
    · rw [Except.ok.injEq]
      exact ⟨fun h => ⟨h, h ▸ mt isNone_eq_true_iff.2 hnone⟩, And.left⟩

lemma find?_of_not_item (h : page.items = [] ∨ ¬ NamesItem path) :
    page.find? root path = lookup root path := by
  obtain ⟨_ | ⟨item, items⟩, output⟩ := page
  · rfl
  · have hpath : ¬ NamesItem path := h.resolve_left (by simp)
    obtain ⟨hthis, hrelative⟩ := not_or.1 hpath
    simp only [Page.find?, if_neg hthis]
    cases hrest : relative? path with
    | none => rfl
    | some rest => simp [hrest] at hrelative

lemma find?_item (items : List Value) (output path : String) :
    Page.find? ⟨v :: items, output⟩ root ("this." ++ path) = lookup v path := by
  have hrelative : relative? ("this." ++ path) = some path := by simp [relative?]
  have hthis : "this." ++ path ≠ "this" := by
    intro h
    have hlist := congrArg String.toList h
    simp at hlist
  simp only [Page.find?, if_neg hthis, hrelative]

/-- **Paths.**  A path is cut at its dots.  The value at it is the entry behind the smallest number
of segments that there is one behind, if there is any.  A letter takes this value unless it is
absent: from the root, if the path is not about the item of a loop, and from that item for the path
behind `this.`. -/
theorem lookup_shallowest (v : Value) (path : String) :
    (wholeKey (segments path) = path ∧ ∀ segment ∈ segments path, '.' ∉ segment) ∧
    (∀ x, lookup v path = some x ↔
      ∃ n < (segments path).length, entryBehind v (segments path) n = some x ∧
        ∀ m < n, entryBehind v (segments path) m = none) ∧
    (lookup v path = none ↔
      ∀ n < (segments path).length, entryBehind v (segments path) n = none) ∧
    (∀ (page : Page) (x : Value), page.items = [] ∨ ¬ NamesItem path →
      (page.resolve v path = .ok x ↔ lookup v path = some x ∧ x ≠ .none)) ∧
    ∀ (items : List Value) (output : String) (root x : Value),
      Page.resolve ⟨v :: items, output⟩ root ("this." ++ path) = .ok x ↔
        lookup v path = some x ∧ x ≠ .none := by
  refine ⟨⟨wholeKey_segments path, fun segment => Text.notMem_of_mem_parts⟩,
    follow_eq_some_iff v _, follow_eq_none_iff v _, fun page x hroot => ?_,
    fun items output root x => ?_⟩
  · rw [resolve_eq_ok_iff, find?_of_not_item hroot]
  · rw [resolve_eq_ok_iff, find?_item]

/-- Of the entries `b.c` and `c`, both of which the path ends in, the outer one counts.  The map under
`a.b` is not looked into, since only single segments lead on. -/
theorem lookup_shallowest_outer :
    let v : Value := .map [("a", .map [("b", .map [("c", .int 1)]), ("b.c", .string "outer")]),
      ("a.b", .map [("c", .int 2)])]
    ¬ NamesItem "a.b.c" ∧ lookup v "a.b.c" = some (.string "outer") ∧
      Page.resolve ⟨[.none], ""⟩ v "a.b.c" = .ok (.string "outer") ∧
      Page.resolve ⟨[v], ""⟩ .none ("this." ++ "a.b.c") = .ok (.string "outer") := by
  intro v
  obtain ⟨-, hlookup, -, hroot, hitem⟩ := lookup_shallowest v "a.b.c"
  have hpath : ¬ NamesItem "a.b.c" := by decide
  have hfound : lookup v "a.b.c" = some (.string "outer") := by
    refine (hlookup _).2 ⟨1, by decide, rfl, fun m hm => ?_⟩
    obtain rfl := Nat.lt_one_iff.1 hm
    rfl
  exact ⟨hpath, hfound, (hroot _ _ (Or.inr hpath)).2 ⟨hfound, by simp⟩,
    (hitem [] "" .none _).2 ⟨hfound, by simp⟩⟩

end Render
end FormLetter

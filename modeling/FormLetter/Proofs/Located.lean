/-
# Where tokens stand

The tokens of a template, each with its span, give the template back: their texts make it up, the
spans follow each other without gap or overlap, and the bytes of the template at a span are the text
of its token (`located_ofText`).

A place in the template is known by the text in front of it.  The line counts the line feeds of that
text, the column is the length of its last line in characters, and the offset is its length in
bytes.  The three are kept up separately, one character at a time, and `standsBehind_after` says
that they agree with the text at every place.

A cursor hands out the tokens one by one.  Once they are used up it stays at the end of the
template.
-/
import FormLetter.Proofs.Placement
import FormLetter.Template.Cursor

namespace FormLetter
namespace Template

/-! ### Places by the text in front of them -/

/-- The place is the one behind the given text, with which the template starts. -/
structure Position.StandsBehind (p : Position) (read : List Char) : Prop where
  line_eq : p.line = 1 + read.count '\n'
  column_eq : p.column = (read.reverse.takeWhile (· ≠ '\n')).length
  offset_eq : p.offset = (String.ofList read).utf8ByteSize

lemma Position.column_next (p : Position) (c : Char) :
    (p.next c).column = if c = '\n' then 0 else p.column + 1 := rfl

theorem Position.standsBehind_after (read : List Char) : (start.after read).StandsBehind read := by
  induction read using List.reverseRecOn with
  | nil => exact ⟨rfl, rfl, rfl⟩
  | append_singleton read c ih =>
    -- the last character moves each of the three on by itself
    have hlast : start.after (read ++ [c]) = (start.after read).next c := after_append _ _ _
    refine ⟨line_after _ _, ?_, ?_⟩
    · rw [hlast, column_next, ih.column_eq, List.reverse_append, List.reverse_singleton,
        List.singleton_append, List.takeWhile_cons]
      by_cases hc : c = '\n' <;> simp [hc]
    · have hsize : (String.ofList [c]).utf8ByteSize = c.utf8Size := String.utf8ByteSize_singleton
      rw [hlast, String.ofList_append, String.utf8ByteSize_append, ← ih.offset_eq, hsize]
      rfl

/-- The bytes of the template between the two ends of the span are the given characters, and both
ends are between two characters. -/
def Span.Slices (span : Span) (source : String) (slice : List Char) : Prop :=
  ∃ p q : source.Pos, p.offset.byteIdx = span.start.offset ∧
    q.offset.byteIdx = span.finish.offset ∧ source.extract p q = String.ofList slice

/-- The bytes of a text in three parts that belong to the second part. -/
lemma toByteArray_extract_append (r s t : String) :
    (r ++ (s ++ t)).toByteArray.extract r.utf8ByteSize (r ++ s).utf8ByteSize = s.toByteArray := by
  have hright := ByteArray.extract_append_size_add (a := r.toByteArray)
    (b := (s ++ t).toByteArray) (i := 0) (j := s.utf8ByteSize)
  have hleft := ByteArray.extract_append_eq_left (a := s.toByteArray) (b := t.toByteArray)
    (i := s.utf8ByteSize) String.size_toByteArray.symm
  rw [← String.toByteArray_append] at hright hleft
  rw [String.utf8ByteSize_append, ← hleft, ← hright, String.size_toByteArray, Nat.add_zero]

/-- A piece of the template lies between the places in front of it and behind it. -/
lemma Span.slices_of_append {source : String} {read slice unread : List Char}
    (h : source.toList = read ++ slice ++ unread) :
    Span.Slices ⟨Position.start.after read, Position.start.after (read ++ slice)⟩ source slice := by
  have hsource : source = String.ofList read ++ (String.ofList slice ++ String.ofList unread) := by
    rw [← String.append_assoc, ← String.ofList_append, ← String.ofList_append, ← h,
      String.ofList_toList]
  have hstart : (String.ofList read).rawEndPos.IsValid source :=
    String.Pos.Raw.isValid_iff_exists_append.2 ⟨_, _, hsource, rfl⟩
  have hfinish : (String.ofList read ++ String.ofList slice).rawEndPos.IsValid source :=
    String.Pos.Raw.isValid_iff_exists_append.2
      ⟨_, String.ofList unread, by rw [hsource, String.append_assoc], rfl⟩
  refine ⟨source.pos _ hstart, source.pos _ hfinish, ?_, ?_, ?_⟩
  · exact (Position.standsBehind_after read).offset_eq.symm
  · rw [(Position.standsBehind_after (read ++ slice)).offset_eq, String.ofList_append]
    rfl
  · have hbytes := toByteArray_extract_append (String.ofList read) (String.ofList slice)
      (String.ofList unread)
    rw [← hsource] at hbytes
    rw [← String.toByteArray_inj, String.toByteArray_extract]
    exact hbytes

/-! ### Tokens with their spans -/

namespace Token

variable {p : Position} {ts : List Token} {t : Token} {span : Span}

lemma map_fst_located (p : Position) (ts : List Token) : (located p ts).map Prod.fst = ts := by
  induction ts generalizing p with
  | nil => rfl
  | cons t ts ih => rw [located, List.map_cons, ih]

/-- The span of a token is found from the tokens in front of it. -/
lemma exists_of_mem_located (h : (t, span) ∈ located p ts) :
    ∃ us vs, ts = us ++ t :: vs ∧ span.start = p.after (us.flatMap text) ∧
      span.finish = p.after (us.flatMap text ++ t.text) := by
  induction ts generalizing p with
  | nil => simp [located] at h
  | cons u ts ih =>
    rcases List.mem_cons.1 h with h | h
    · obtain ⟨rfl, rfl⟩ := Prod.mk.inj h
      exact ⟨[], ts, rfl, rfl, rfl⟩
    · obtain ⟨us, vs, rfl, hstart, hfinish⟩ := ih h
      refine ⟨u :: us, vs, rfl, ?_, ?_⟩
      · rw [hstart, List.flatMap_cons, Position.after_append]
      · rw [hfinish, List.flatMap_cons, List.append_assoc, ← Position.after_append]

lemma start_of_head?_located (h : (t, span) ∈ (located p ts).head?) : span.start = p := by
  cases ts with
  | nil => simp [located] at h
  | cons u ts =>
    obtain ⟨rfl, rfl⟩ := Prod.mk.inj (Option.some.inj h)
    rfl

lemma isChain_located (p : Position) (ts : List Token) :
    (located p ts).IsChain fun t u => u.2.start = t.2.finish := by
  induction ts generalizing p with
  | nil => exact List.isChain_nil
  | cons t ts ih =>
    refine List.isChain_cons.2 ⟨?_, ih _⟩
    rintro ⟨u, span⟩ hu
    exact start_of_head?_located hu

end Token

/-! ### Tokens from a cursor -/

namespace Cursor

/-- The cursor behind a number of tokens. -/
def behind (cursor : Cursor) : Nat → Cursor
  | 0 => cursor
  | n + 1 => (cursor.behind n).next.2.2

/-- What the cursor hands out behind a number of tokens: the next token, if there is any, and its
span. -/
def handsOut (cursor : Cursor) (n : Nat) : Option Token × Span :=
  ((cursor.behind n).next.1, (cursor.behind n).next.2.1)

lemma behind_next (cursor : Cursor) (n : Nat) :
    cursor.next.2.2.behind n = cursor.behind (n + 1) := by
  induction n with
  | zero => rfl
  | succ n ih => rw [behind, ih, ← behind]

lemma handsOut_next (cursor : Cursor) (n : Nat) :
    cursor.next.2.2.handsOut n = cursor.handsOut (n + 1) := by
  rw [handsOut, behind_next, handsOut]

lemma behind_of_unread_nil {cursor : Cursor} (h : cursor.unread = []) (n : Nat) :
    cursor.behind n = cursor := by
  induction n with
  | zero => rfl
  | succ n ih => rw [behind, ih, next, h]

/-- The tokens that a cursor hands out, and what it hands out behind them. -/
theorem handsOut_eq (p : Position) (ts : List Token) (n : Nat) :
    handsOut ⟨p, ts⟩ n =
      match (Token.located p ts)[n]? with
      | some (t, span) => (some t, span)
      | none => (none, ⟨p.after (ts.flatMap Token.text), p.after (ts.flatMap Token.text)⟩) := by
  induction ts generalizing p n with
  | nil =>
    rw [handsOut, behind_of_unread_nil rfl]
    rfl
  | cons t ts ih =>
    cases n with
    | zero => rfl
    | succ n =>
      have hrest : handsOut ⟨p, t :: ts⟩ (n + 1) = handsOut ⟨p.after t.text, ts⟩ n :=
        (handsOut_next ⟨p, t :: ts⟩ n).symm
      rw [hrest, ih, Token.located, List.getElem?_cons_succ, List.flatMap_cons,
        Position.after_append]

end Cursor

/-- **Tokens in their places.**  The tokens of a template make it up, and their spans tile it from
its first place on.  The bytes at each span are the text of its token, and each end of a span is the
place behind the text in front of it.  A cursor hands out these tokens with these spans, and from
then on nothing any more, at the end of the template. -/
theorem Token.located_ofText (source : String) :
    let row := located .start (ofText source.toList)
    let handsOut := (Cursor.ofSource source).handsOut
    row.flatMap (fun t => t.1.text) = source.toList ∧
    (∀ t ∈ row.head?, t.2.start = ⟨1, 0, 0⟩) ∧
    (row.IsChain fun t u => u.2.start = t.2.finish) ∧
    (∀ t ∈ row, t.2.Slices source t.1.text) ∧
    (∀ t ∈ row, ∀ p ∈ [t.2.start, t.2.finish], ∃ read unread,
      source.toList = read ++ unread ∧ p.StandsBehind read) ∧
    (∀ n (h : n < row.length), handsOut n = (some row[n].1, row[n].2)) ∧
    ∃ finish : Position, finish.StandsBehind source.toList ∧
      ∀ n, row.length ≤ n → handsOut n = (none, ⟨finish, finish⟩) := by
  intro row handsOut
  have htext := ofText_text source.toList
  have hhandsOut := Cursor.handsOut_eq .start (ofText source.toList)
  -- the text of a token stands behind the text of the tokens in front of it
  have hplace : ∀ t ∈ row, ∃ read unread, source.toList = read ++ t.1.text ++ unread ∧
      t.2 = ⟨Position.start.after read, Position.start.after (read ++ t.1.text)⟩ := by
    rintro ⟨t, span⟩ ht
    obtain ⟨us, vs, htokens, hstart, hfinish⟩ := exists_of_mem_located ht
    refine ⟨us.flatMap text, vs.flatMap text, ?_, ?_⟩
    · rw [← htext, htokens, List.flatMap_append, List.flatMap_cons, List.append_assoc]
    · rw [← hstart, ← hfinish]
  refine ⟨?_, ?_, isChain_located _ _, ?_, ?_, ?_, ?_⟩
  · rw [← List.flatMap_map, map_fst_located, htext]
  · rintro ⟨t, span⟩ ht
    exact start_of_head?_located ht
  · intro t ht
    obtain ⟨read, unread, hsource, hspan⟩ := hplace t ht
    rw [hspan]
    exact Span.slices_of_append hsource
  · intro t ht p hp
    obtain ⟨read, unread, hsource, hspan⟩ := hplace t ht
    rw [hspan] at hp
    rcases List.mem_pair.1 hp with rfl | rfl
    · exact ⟨read, t.1.text ++ unread, by rw [hsource, List.append_assoc],
        Position.standsBehind_after _⟩
    · exact ⟨read ++ t.1.text, unread, hsource, Position.standsBehind_after _⟩
  · intro n hn
    have hget : row[n]? = some row[n] := List.getElem?_eq_getElem hn
    exact (hhandsOut n).trans (by rw [hget])
  · refine ⟨Position.start.after source.toList, Position.standsBehind_after _, fun n hn => ?_⟩
    have hget : row[n]? = none := List.getElem?_eq_none hn
    rw [← htext]
    exact (hhandsOut n).trans (by rw [hget])

end Template
end FormLetter

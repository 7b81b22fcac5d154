/-
# The look-ahead and the tag agree

Whether a tag closes or goes on with a block is told twice: by a look at the tokens ahead, before
the tag is read, and by its contents, once it has been read to its end.  The two agree on every
complete tag (`continuesBlock_of_isClosed`), so the segments of a template are right about their
tags.  The construction of a tree has two causes of failure for a tag that has been mistaken for
another one; no call of a parser fails with either of them (`lookAhead_agrees`).

The look-ahead is defined by the first word of the tag, however long that is.  A scan that gives up
on a word as soon as it takes up more bytes than both of the words that it looks for finds the same
(`scansBlock_eq`).
-/
import FormLetter.Proofs.Rejected
import FormLetter.Proofs.Resuming.Calls

namespace FormLetter

/-- Does the cause say that a tag has been mistaken for another one? -/
def Cause.isMisreading : Cause → Bool
  | misreadTag _ => true
  | conditionEndMissing => true
  | _ => false

namespace Template

/-! ### A scan that gives up on long words -/

/-- Is the word one of those that go on with a condition? -/
def Tag.isElse (word : List Char) : Bool := word == elseWord || word == elseIfWord

/-- The number of bytes that a text takes up. -/
def byteLength (cs : List Char) : Nat := (String.ofList cs).utf8ByteSize

/-- Scans the rest of a word of which `word` has been read, up to the first blank or the end of the
tag, and gives up once the word takes up more bytes than `elseif`. -/
def scansWord (word : List Char) : List Token → Bool
  | .character c :: ts =>
    if Text.isBlank c then Tag.isElse word
    else if byteLength Tag.elseIfWord < byteLength (word ++ [c]) then false
    else scansWord (word ++ [c]) ts
  | .closing .plain :: _ => Tag.isElse word
  | _ => false

/-- Scans the tokens behind an opening delimiter for the slash or one of the two words. -/
def scansBlock (ahead : List Token) : Bool :=
  let ts := ahead.dropWhile Token.isBlank
  ts.head? == some (.character '/') || scansWord [] ts

lemma byteLength_append (cs ds : List Char) :
    byteLength (cs ++ ds) = byteLength cs + byteLength ds := by
  rw [byteLength, String.ofList_append, String.utf8ByteSize_append, byteLength, byteLength]

/-- A word that is too long already only grows. -/
lemma isElse_append_of_long {word : List Char}
    (h : byteLength Tag.elseIfWord < byteLength word) (more : List Char) :
    Tag.isElse (word ++ more) = false := by
  have hlong : byteLength Tag.elseIfWord < byteLength (word ++ more) := by
    rw [byteLength_append]
    exact Nat.lt_add_right _ h
  have hshort : byteLength Tag.elseWord < byteLength (word ++ more) :=
    lt_trans (by decide) hlong
  have hne : ∀ w, byteLength w < byteLength (word ++ more) → word ++ more ≠ w :=
    fun w hw heq => ne_of_lt hw (by rw [heq])
  simp [Tag.isElse, hne _ hlong, hne _ hshort]

lemma scansWord_eq (word : List Char) (ts : List Token) :
    scansWord word ts = (firstWord? ts).any fun more => Tag.isElse (word ++ more) := by
  induction ts generalizing word with
  | nil => rfl
  | cons t ts ih =>
    cases t with
    | character c =>
      rw [scansWord, firstWord?]
      split_ifs with hblank hlong
      · simp
      · cases hmore : firstWord? ts with
        | none => simp
        | some more => simpa using (isElse_append_of_long hlong more).symm
      · rw [ih]
        cases firstWord? ts <;> simp
    | opening fence => rfl
    | closing fence => cases fence <;> simp [scansWord, firstWord?]

/-- The scan finds what the look-ahead is defined to be. -/
theorem scansBlock_eq (ts : List Token) : scansBlock ts = continuesBlock ts := by
  rw [continuesBlock]
  split
  · next h => simp [scansBlock, h]
  · next h =>
    have hslash : (ts.dropWhile Token.isBlank).head? ≠ some (.character '/') := by
      intro hhead
      obtain ⟨us, hus⟩ := List.head?_eq_some_iff.1 hhead
      exact h us hus
    rw [scansBlock, scansWord_eq, beq_false_of_ne hslash, Bool.false_or]
    cases firstWord? (ts.dropWhile Token.isBlank) <;> simp [Tag.isElse]

/-- A word that only starts with `else` does not go on with a block. -/
example : scansBlock (Token.ofText " elsewhere\x7d\x7d".toList) = false := rfl

/-! ### Segments are right about their tags -/

lemma Tag.continues_iff {t : Tag} : t.continues = true ↔
    (∃ name, t = .close name) ∨ (∃ rest, t = .otherwise rest) ∨
      ∃ condition, t = .otherwiseIf condition := by
  cases t <;> simp [continues]

namespace Segment

/-- A complete tag says whether it goes on with a block just as its contents do. -/
def IsTold : Segment → Prop
  | tag continues contents => continues = (Tag.classify contents).continues
  | _ => True

lemma isTold_prepend {cs : List Char} {segments : List Segment}
    (h : ∀ segment ∈ segments, segment.IsTold) :
    ∀ segment ∈ prepend cs segments, segment.IsTold := by
  unfold prepend
  split
  · exact List.forall_mem_cons.2 ⟨trivial, (List.forall_mem_cons.1 h).2⟩
  · exact List.forall_mem_cons.2 ⟨trivial, h⟩

lemma exists_of_isClosed {fence : Fence} {ts : List Token}
    (h : (inTag fence ts).isClosed = true) :
    ∃ us, ts = (inTag fence ts).contents.map Token.character ++ Token.closing fence :: us := by
  induction ts with
  | nil => simp [inTag] at h
  | cons t ts ih =>
    cases t with
    | character c =>
      obtain ⟨us, hts⟩ := ih h
      exact ⟨us, congrArg (Token.character c :: ·) hts⟩
    | closing other =>
      by_cases hother : other = fence
      · subst hother
        exact ⟨ts, by simp [inTag]⟩
      · simp [inTag, hother] at h
    | opening other => simp [inTag] at h

/-- On a complete tag the look-ahead agrees with the contents. -/
theorem continuesBlock_of_isClosed {ts : List Token} (h : (inTag .plain ts).isClosed = true) :
    continuesBlock ts = (Tag.classify (inTag .plain ts).contents).continues := by
  obtain ⟨us, hts⟩ := exists_of_isClosed h
  have hlook := continuesBlock_eq_continues (inTag .plain ts).contents us
  rwa [← hts] at hlook

lemma isTold_complete {ts : List Token}
    (h : ∀ fence, ∀ segment ∈ (inTag fence ts).rest, segment.IsTold) (fence : Fence) :
    ∀ segment ∈ (inTag fence ts).complete fence (continuesBlock ts), segment.IsTold := by
  rw [Open.complete]
  split_ifs with hclosed
  · refine List.forall_mem_cons.2 ⟨?_, h fence⟩
    cases fence with
    | plain => exact continuesBlock_of_isClosed hclosed
    | markdown => trivial
  · exact List.forall_mem_cons.2 ⟨trivial, h fence⟩

theorem isTold_ofTokens (ts : List Token) :
    (∀ segment ∈ ofTokens ts, segment.IsTold) ∧
      ∀ fence, ∀ segment ∈ (inTag fence ts).rest, segment.IsTold := by
  induction ts with
  | nil => simp [ofTokens, inTag]
  | cons t ts ih =>
    obtain ⟨ih, ihTag⟩ := ih
    cases t with
    | character c => exact ⟨isTold_prepend ih, ihTag⟩
    | closing other =>
      refine ⟨isTold_prepend ih, fun fence => ?_⟩
      rw [inTag]
      split_ifs
      · exact ih
      · exact isTold_prepend ih
    | opening other => exact ⟨isTold_complete ihTag other, fun _ => isTold_complete ihTag other⟩

end Segment

/-! ### No tag is mistaken for another one -/

lemma Segment.Rejected.isMisreading_eq {segment : Segment} {cause : Cause}
    (h : segment.Rejected cause) (htold : segment.IsTold) : cause.isMisreading = false := by
  cases h with
  | misreadTag h => simp [Segment.IsTold, h] at htold
  | conditionEndMissing h => simp [Segment.IsTold, h] at htold
  | _ => rfl

lemma Draft.isMisreading_of_run {counted : Nat} {p : Position} {d : Draft}
    {segments : List Segment} {cause : Cause} (htold : ∀ segment ∈ segments, segment.IsTold)
    (h : (d.run counted p segments).result = .error cause) : cause.isMisreading = false := by
  rcases exists_rejected_of_run h with ⟨name, rfl⟩ | ⟨_, segment, _, rfl, hrejected, _⟩
  · rfl
  · exact hrejected.isMisreading_eq (htold segment (by simp))

/-- **Look-ahead and tag.**  If the tag behind an opening delimiter is complete, the look-ahead says
that it goes on with a block just in case its contents are those of a closing tag or of one of the
two tags of an alternative.  A scan that gives up on long words says the same as the look-ahead.  So
no call of a parser, however often it has been asked before, finds that a tag has been mistaken for
another one. -/
theorem lookAhead_agrees :
    (∀ ts, (Segment.inTag .plain ts).isClosed = true →
      (continuesBlock ts = true ↔
        (∃ name, Tag.classify (Segment.inTag .plain ts).contents = .close name) ∨
        (∃ rest, Tag.classify (Segment.inTag .plain ts).contents = .otherwise rest) ∨
        ∃ condition, Tag.classify (Segment.inTag .plain ts).contents = .otherwiseIf condition)) ∧
    (∀ ts, scansBlock ts = continuesBlock ts) ∧
    ∀ source name n e, ((Parser.ofSource source name).behindCalls n).parse.1 = .error e →
      (∀ contents, e.cause ≠ .misreadTag contents) ∧ e.cause ≠ .conditionEndMissing := by
  refine ⟨fun ts hclosed => ?_, scansBlock_eq, fun source name n e he => ?_⟩
  · rw [Segment.continuesBlock_of_isClosed hclosed]
    exact Tag.continues_iff
  · obtain ⟨read, left, hstands⟩ := Parser.exists_standsAt source name n
    have hcause : e.cause.isMisreading = false := by
      have hresult := Parser.result_of_parse_error he
      rw [Parser.outcome, hstands.unread_eq] at hresult
      exact Draft.isMisreading_of_run (Segment.isTold_ofTokens left).1 hresult
    constructor
    · intro contents heq
      simp [heq, Cause.isMisreading] at hcause
    · intro heq
      simp [heq, Cause.isMisreading] at hcause

end Template
end FormLetter

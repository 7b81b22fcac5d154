/-
# Faults that stay

A template is at fault in one of two ways.  Either it ends where something is still missing, a
delimiter or a closing tag, or something stands in it that does not fit.  A fault of the second kind
is definite: whatever text comes to stand behind the template, the error is the same
(`parse_append_of_error`).

The construction of a tree rejects a segment.  A tag is settled once its end, or the token that
breaks it off, has been read; it and the segments in front of it are then the same in any longer row
of tokens (`exists_ofTokens_append`).  The look-ahead may go further than that, but it says what the
contents say if the tag is complete, and nothing depends on it if the tag is broken off.
-/
import FormLetter.Proofs.LookAhead

namespace FormLetter

/-! ### Faults at the end of the template -/

namespace Cause

/-- Does the cause say that the template has ended too early? -/
def isEnd : Cause → Bool
  | unclosedTag _ => true
  | unclosedBlock _ => true
  | _ => false

lemma prefix_unexpectedEnd (expected : String) :
    "unexpected end of input".toList <+: (unexpectedEnd expected).toList := by
  have hwords : "unexpected ".toList ++ "end of input".toList =
      "unexpected end of input".toList := by decide
  rw [unexpectedEnd, unexpected, String.toList_append, String.toList_append, String.toList_append,
    hwords, List.append_assoc]
  exact List.prefix_append _ _

/-- The message of an error says so if the template has ended too early. -/
lemma exists_detail_of_isEnd {cause : Cause} (h : cause.isEnd = true) :
    ∃ detail ∈ cause.detail, "unexpected end of input".toList <+: detail.toList := by
  cases cause with
  | unclosedTag fence => exact ⟨_, rfl, prefix_unexpectedEnd _⟩
  | unclosedBlock name => exact ⟨_, rfl, prefix_unexpectedEnd _⟩
  | _ => simp [isEnd] at h

end Cause

namespace Template

/-! ### Segments in a longer row of tokens -/

namespace Segment

variable {fence : Fence} {ts : List Token} {segment : Segment} {rest : List Segment}

/-- Is the segment a tag of which the end, or the token that breaks it off, has been read? -/
def isSettled : Segment → Bool
  | text _ => false
  | tag _ _ => true
  | markdown _ => true
  | broken _ _ found => found.isSome

/-- A tag goes no further in a longer row than to its end or to the token that breaks it off. -/
lemma exists_inTag_append
    (h : (inTag fence ts).isClosed = true ∨ (inTag fence ts).found.isSome = true) :
    ∃ vs, (inTag fence ts).rest = ofTokens vs ∧
      ∀ us, inTag fence (ts ++ us) = { inTag fence ts with rest := ofTokens (vs ++ us) } := by
  induction ts with
  | nil => simp [inTag] at h
  | cons t ts ih =>
    cases t with
    | character c =>
      obtain ⟨vs, hrest, happend⟩ := ih h
      exact ⟨vs, hrest, fun us => by simp [inTag, happend us]⟩
    | closing other =>
      by_cases hother : other = fence
      · exact ⟨ts, by simp [inTag, hother], fun us => by simp [inTag, hother]⟩
      · exact ⟨.closing other :: ts, by simp [inTag, hother, ofTokens],
          fun us => by simp [inTag, hother, ofTokens]⟩
    | opening other =>
      exact ⟨.opening other :: ts, by simp [inTag, ofTokens],
        fun us => by simp [inTag, ofTokens]⟩

/-- What the look-ahead finds does not depend on what is behind a complete tag. -/
lemma continuesBlock_append (us : List Token) (h : (inTag .plain ts).isClosed = true) :
    continuesBlock (ts ++ us) = continuesBlock ts := by
  obtain ⟨vs, -, happend⟩ := exists_inTag_append (Or.inl h)
  have hclosed : (inTag .plain (ts ++ us)).isClosed = true := by rw [happend, h]
  rw [continuesBlock_of_isClosed h, continuesBlock_of_isClosed hclosed, happend]

lemma isSettled_of_prepend {cs : List Char} {segments : List Segment}
    (h : prepend cs segments = segment :: rest) : segment.isSettled = false := by
  unfold prepend at h
  split at h
  · rw [← (List.cons_eq_cons.1 h).1, isSettled]
  · rw [← (List.cons_eq_cons.1 h).1, isSettled]

lemma ofTokens_append_of_isSettled (h : ofTokens ts = segment :: rest)
    (hsettled : segment.isSettled = true) :
    ∃ vs, rest = ofTokens vs ∧ ∀ us, ofTokens (ts ++ us) = segment :: ofTokens (vs ++ us) := by
  cases ts with
  | nil => simp [ofTokens] at h
  | cons t ts =>
    cases t with
    | character c => simp [isSettled_of_prepend h] at hsettled
    | closing fence => simp [isSettled_of_prepend h] at hsettled
    | opening fence =>
      rw [ofTokens, Open.complete] at h
      split_ifs at h with hclosed
      · obtain ⟨rfl, rfl⟩ := List.cons_eq_cons.1 h
        obtain ⟨vs, hrest, happend⟩ := exists_inTag_append (Or.inl hclosed)
        refine ⟨vs, hrest, fun us => ?_⟩
        rw [List.cons_append, ofTokens, Open.complete, happend, if_pos hclosed]
        cases fence with
        | plain => rw [continuesBlock_append us hclosed]
        | markdown => rfl
      · obtain ⟨rfl, rfl⟩ := List.cons_eq_cons.1 h
        obtain ⟨vs, hrest, happend⟩ := exists_inTag_append (Or.inr hsettled)
        refine ⟨vs, hrest, fun us => ?_⟩
        rw [List.cons_append, ofTokens, Open.complete, happend, if_neg hclosed]

/-- A text stays as it is if something else has been read behind it. -/
lemma ofTokens_append_of_text {content : List Char} (h : ofTokens ts = text content :: rest)
    (hne : rest ≠ []) :
    ∃ vs, rest = ofTokens vs ∧ ∀ us, ofTokens (ts ++ us) = text content :: ofTokens (vs ++ us) := by
  obtain ⟨run, vs, rfl, hrun, hends⟩ := exists_run ts
  by_cases hnil : run = []
  · -- the row would not start with text
    have hprepend := prepend_of_endsText hends []
    rw [hnil, List.nil_append] at h
    rw [h, prepend] at hprepend
    simp at hprepend
  · rw [ofTokens_run hnil hrun hends] at h
    obtain ⟨hcontent, rfl⟩ := List.cons_eq_cons.1 h
    refine ⟨vs, rfl, fun us => ?_⟩
    have hends' : EndsText (vs ++ us) := by
      cases vs with
      | nil => simp [ofTokens] at hne
      | cons v vs => simpa [EndsText] using hends
    rw [List.append_assoc, ofTokens_run hnil hrun hends', hcontent]

/-- In a longer row of tokens, the segments up to a settled one are the same. -/
theorem exists_ofTokens_append {taken : List Segment} (h : ofTokens ts = taken ++ segment :: rest)
    (htaken : ∀ s ∈ taken, ∀ fence contents found, s ≠ broken fence contents found)
    (hsettled : segment.isSettled = true) (us : List Token) :
    ∃ rest', ofTokens (ts ++ us) = taken ++ segment :: rest' := by
  induction taken generalizing ts with
  | nil =>
    obtain ⟨vs, -, happend⟩ := ofTokens_append_of_isSettled h hsettled
    exact ⟨_, happend us⟩
  | cons s taken ih =>
    obtain ⟨hs, htaken⟩ := List.forall_mem_cons.1 htaken
    have hfirst : ∃ vs, taken ++ segment :: rest = ofTokens vs ∧
        ∀ us, ofTokens (ts ++ us) = s :: ofTokens (vs ++ us) := by
      cases s with
      | text content => exact ofTokens_append_of_text h (by simp)
      | tag continues contents => exact ofTokens_append_of_isSettled h rfl
      | markdown contents => exact ofTokens_append_of_isSettled h rfl
      | broken fence contents found => exact absurd rfl (hs fence contents found)
    obtain ⟨vs, hrest, happend⟩ := hfirst
    obtain ⟨rest', hrest'⟩ := ih hrest.symm htaken
    exact ⟨rest', by rw [happend, hrest', List.cons_append]⟩

/-- A segment that is rejected is settled, unless the template ends with it. -/
lemma Rejected.isSettled {cause : Cause} (h : segment.Rejected cause)
    (hend : cause.isEnd = false) : segment.isSettled = true := by
  cases h with
  | unclosedTag => simp [Cause.isEnd] at hend
  | _ => rfl

end Segment

/-- **Faults that stay.**  If a template has no tree, and the message does not say that its end was
not expected, then the error is the same for each longer template, in cause, kind, detail, name and
line, as long as what is added does not start with a brace. -/
theorem parse_append_of_error {source more name : String} {e : Error}
    (h : parse source name = .error e)
    (hdefinite : ∀ detail ∈ e.detail, ¬ "unexpected end of input".toList <+: detail.toList)
    (hseam : ∀ c ∈ more.toList.head?, c ≠ '\x7b' ∧ c ≠ '\x7d') :
    parse (source ++ more) name = .error e := by
  obtain ⟨cause, p, unread, hshorter, rfl⟩ := parse_eq_error_iff_run.1 h
  have hend : cause.isEnd = false := by
    by_contra hend
    obtain ⟨detail, hdetail, hprefix⟩ := Cause.exists_detail_of_isEnd (by simpa using hend)
    exact hdefinite detail hdetail hprefix
  have hresult : (Draft.empty.run 0 .start (segments source)).result = .error cause := by
    rw [hshorter]
  have htokens : Token.ofText (source ++ more).toList =
      Token.ofText source.toList ++ Token.ofText more.toList := by
    rw [String.toList_append]
    refine Token.ofText_append fun c _ d hd hjoins => ?_
    obtain ⟨rfl, hbrace⟩ := hjoins
    rcases hbrace with rfl | rfl
    · exact (hseam _ hd).1 rfl
    · exact (hseam _ hd).2 rfl
  rcases Draft.exists_rejected_of_run hresult with
    ⟨block, rfl⟩ | ⟨taken, segment, rest, hsegments, hrejected, htaken, hrun⟩
  · simp [Cause.isEnd] at hend
  · obtain ⟨rest', hrest'⟩ := Segment.exists_ofTokens_append hsegments htaken
      (hrejected.isSettled hend) (Token.ofText more.toList)
    have hlonger : segments (source ++ more) = taken ++ segment :: rest' := by
      rw [segments, htokens, hrest']
    refine parse_eq_error_iff_run.2 ⟨cause, p, rest', ?_, rfl⟩
    rw [hlonger, hrun, hshorter]

/-- A word too many behind `else` stays at fault if a closing tag follows, although of another
block. -/
theorem parse_append_of_error_junk :
    parse ("\x7b\x7b#if x\x7d\x7d\n\x7b\x7belse y\x7d\x7d" ++ "\n\x7b\x7b/each\x7d\x7d") "letter" =
      .error { cause := .junkAfterElse "y", location := some ⟨"letter", 2⟩ } := by
  refine parse_append_of_error rfl ?_ ?_
  · intro detail hdetail
    obtain rfl := Option.some.inj hdetail
    decide
  · intro c hc
    obtain rfl : '\n' = c := Option.some.inj hc
    decide

end Template
end FormLetter

/-
# What is left of a template

The construction of a tree takes segments from the front and leaves the others alone, wherever it
stops (`exists_taken`).  What it leaves are the segments of the text that is left: a segment takes up
whole tokens (`exists_tokens`), and tokens that are left over from a text are the tokens of their own
text.  If the construction fails, one of the tokens that it has taken opens a tag.
-/
import FormLetter.Template.Parser
import FormLetter.Proofs.Segments

namespace FormLetter
namespace Template

/-- Is the segment a tag, complete or broken off? -/
def Segment.isTag : Segment → Bool
  | text _ => false
  | tag _ _ => true
  | markdown _ => true
  | broken _ _ _ => true

/-- Some token opens a tag. -/
def OpensTag (ts : List Token) : Prop := ∃ fence, Token.opening fence ∈ ts

lemma OpensTag.countP_pos {ts : List Token} (h : OpensTag ts) : 0 < ts.countP (!·.isText) := by
  obtain ⟨fence, hmem⟩ := h
  exact List.countP_pos_iff.2 ⟨_, hmem, rfl⟩

namespace Segment

/-! ### The tokens of the first segments -/

/-- A tag takes up tokens to its end, and what is behind it are the segments of the others. -/
lemma exists_tokens_inTag (fence : Fence) (ts : List Token) :
    ∃ us vs, ts = us ++ vs ∧ (inTag fence ts).rest = ofTokens vs ∧
      us.flatMap Token.text = (inTag fence ts).contents ++
        bif (inTag fence ts).isClosed then fence.closing else [] := by
  induction ts with
  | nil => exact ⟨[], [], rfl, rfl, rfl⟩
  | cons t ts ih =>
    cases t with
    | character c =>
      obtain ⟨us, vs, rfl, hrest, htext⟩ := ih
      exact ⟨.character c :: us, vs, rfl, hrest, by simp [Token.text, inTag, htext]⟩
    | closing other =>
      by_cases h : other = fence
      · subst h
        exact ⟨[.closing other], ts, rfl, by simp [inTag], by simp [inTag, Token.text]⟩
      · exact ⟨[], .closing other :: ts, rfl, by simp [inTag, h, ofTokens], by simp [inTag, h]⟩
    | opening other =>
      exact ⟨[], .opening other :: ts, rfl, by simp [inTag, ofTokens], by simp [inTag]⟩

lemma exists_complete (fence : Fence) (continues : Bool) (o : Open) :
    ∃ segment, o.complete fence continues = segment :: o.rest ∧ segment.source =
      fence.opening ++ (o.contents ++ bif o.isClosed then fence.closing else []) := by
  cases h : o.isClosed with
  | true => cases fence <;> exact ⟨_, by rw [Open.complete, if_pos h], by simp [closed, source]⟩
  | false => exact ⟨_, by rw [Open.complete, if_neg (by simp [h])], by simp [source]⟩

/-- The first segment takes up tokens at the start of the row. -/
lemma exists_tokens_cons {ts : List Token} {segment : Segment} {rest : List Segment}
    (h : ofTokens ts = segment :: rest) :
    ∃ us vs, ts = us ++ vs ∧ rest = ofTokens vs ∧ us.flatMap Token.text = segment.source ∧
      (segment.isTag = true → OpensTag us) := by
  induction ts generalizing segment rest with
  | nil => simp [ofTokens] at h
  | cons t ts ih =>
    cases ht : t.isText with
    | true =>
      -- a text goes on with the text behind it, if there is any
      rw [ofTokens_cons_text ht] at h
      unfold prepend at h
      split at h
      · next content rest' hts =>
        obtain ⟨rfl, rfl⟩ := List.cons_eq_cons.1 h
        obtain ⟨us, vs, rfl, hrest, htext, -⟩ := ih hts
        exact ⟨t :: us, vs, rfl, hrest, by simp [htext, source], by simp [isTag]⟩
      · obtain ⟨rfl, rfl⟩ := List.cons_eq_cons.1 h
        exact ⟨[t], ts, rfl, rfl, by simp [source], by simp [isTag]⟩
    | false =>
      cases t with
      | character c => simp [Token.isText] at ht
      | closing fence => simp [Token.isText] at ht
      | opening fence =>
        obtain ⟨us, vs, rfl, hrest, htext⟩ := exists_tokens_inTag fence ts
        obtain ⟨segment', hcomplete, hsource⟩ :=
          exists_complete fence (continuesBlock (us ++ vs)) (inTag fence (us ++ vs))
        rw [ofTokens, hcomplete] at h
        obtain ⟨rfl, rfl⟩ := List.cons_eq_cons.1 h
        exact ⟨.opening fence :: us, vs, rfl, hrest, by simp [htext, hsource, Token.text],
          fun _ => ⟨fence, by simp⟩⟩

/-- Segments at the start of a row take up tokens at its start. -/
theorem exists_tokens {taken rest : List Segment} {ts : List Token}
    (h : ofTokens ts = taken ++ rest) :
    ∃ us vs, ts = us ++ vs ∧ rest = ofTokens vs ∧
      us.flatMap Token.text = taken.flatMap source ∧
      ((∃ segment ∈ taken, segment.isTag = true) → OpensTag us) := by
  induction taken generalizing ts with
  | nil => exact ⟨[], ts, rfl, h.symm, rfl, by simp⟩
  | cons segment taken ih =>
    obtain ⟨us, vs, rfl, hrest, htext, htag⟩ := exists_tokens_cons h
    obtain ⟨us', vs, rfl, hrest', htext', htag'⟩ := ih hrest.symm
    refine ⟨us ++ us', vs, by simp, hrest', by simp [htext, htext'], ?_⟩
    rintro ⟨segment', hmem, h'⟩
    rcases List.mem_cons.1 hmem with rfl | hmem
    · obtain ⟨fence, hfence⟩ := htag h'
      exact ⟨fence, List.mem_append_left _ hfence⟩
    · obtain ⟨fence, hfence⟩ := htag' ⟨segment', hmem, h'⟩
      exact ⟨fence, List.mem_append_right _ hfence⟩

lemma eq_nil_of_ofTokens {ts : List Token} (h : ofTokens ts = []) : ts = [] := by
  have htext := (ofTokens_text ts).1
  rw [h] at htext
  cases ts with
  | nil => rfl
  | cons t ts => simp at htext

/-- The tokens that are left over from a text are those of their own text. -/
lemma segments_flatMap_source {source : String} {us vs : List Token}
    (h : Token.ofText source.toList = us ++ vs) :
    segments (String.ofList ((ofTokens vs).flatMap Segment.source)) = ofTokens vs ∧
      Token.ofText ((ofTokens vs).flatMap Segment.source) = vs := by
  have hchain : vs.IsChain Token.Apart := (h ▸ Token.isChain_ofText source.toList).right_of_append
  have htokens : Token.ofText ((ofTokens vs).flatMap Segment.source) = vs := by
    rw [(ofTokens_text vs).1, Token.ofText_flatMap_text hchain]
  exact ⟨by rw [segments, String.toList_ofList, htokens], htokens⟩

end Segment

/-! ### What a run takes and leaves -/

namespace Draft

variable {counted : Nat}

lemma opened_take_text {span : Span} {d next : Draft} {content : List Char}
    (h : d.take counted span (.text content) = .ok next) : next.opened = d.opened := by
  obtain rfl := Except.ok.inj h
  rfl

/-- How a run over some segments ends: it has taken `taken`, and it leaves the others. -/
structure Takes (p : Position) (d : Draft) (segments taken : List Segment) (o : Outcome) : Prop where
  eq_append : segments = taken ++ o.unread
  position_eq : o.position = p.after (taken.flatMap Segment.source)
  /-- A tree is made of all segments. -/
  unread_of_ok : ∀ blocks, o.result = .ok blocks → o.unread = []
  /-- What goes wrong is either a tag that was taken or a block that was open before. -/
  exists_tag : ∀ cause, o.result = .error cause → d.opened = [] →
    ∃ segment ∈ taken, segment.isTag = true

theorem exists_taken (counted : Nat) (p : Position) (d : Draft) (segments : List Segment) :
    ∃ taken, Takes p d segments taken (d.run counted p segments) := by
  induction segments generalizing p d with
  | nil =>
    refine ⟨[], rfl, rfl, fun _ _ => rfl, fun cause h hopened => ?_⟩
    simp [run, finish, hopened] at h
  | cons segment segments ih =>
    rw [run]
    cases htake : d.take counted ⟨p, p.after segment.source⟩ segment with
    | error cause =>
      refine ⟨[segment], rfl, by simp, by simp, fun cause' h hopened => ⟨segment, by simp, ?_⟩⟩
      cases segment with
      | text content => simp [take] at htake
      | _ => rfl
    | ok next =>
      obtain ⟨taken, htaken⟩ := ih (p.after segment.source) next
      refine ⟨segment :: taken, ?_, ?_, htaken.unread_of_ok, fun cause h hopened => ?_⟩
      · exact congrArg (segment :: ·) htaken.eq_append
      · rw [List.flatMap_cons, Position.after_append]
        exact htaken.position_eq
      · by_cases htag : segment.isTag = true
        · exact ⟨segment, by simp, htag⟩
        · cases segment with
          | text content =>
            obtain ⟨other, hmem, hother⟩ :=
              htaken.exists_tag cause h ((opened_take_text htake).trans hopened)
            exact ⟨other, List.mem_cons_of_mem _ hmem, hother⟩
          | _ => exact absurd rfl htag

end Draft
end Template
end FormLetter

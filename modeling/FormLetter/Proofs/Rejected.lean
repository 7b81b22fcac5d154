/-
# Segments that are rejected

The construction of a tree stops at the first segment that it cannot take.  What is at fault can be
told from that segment (`Segment.Rejected`): a tag that does not say what it has to, or a tag that
is broken off.  Which block is open, and how many are, decides only which of these faults it is.

A run that fails has either come to the end inside a block, or rejected a segment; and then it ends
in the same way whatever is behind that segment (`exists_rejected_of_run`).
-/
import FormLetter.Template.Parser
import Mathlib.Tactic.Common

namespace FormLetter
namespace Template

/-- The segment is rejected for the given cause. -/
inductive Segment.Rejected : Segment → Cause → Prop
  | conditionMissing {contents : List Char} (h : Tag.classify contents = .directive "if" "") :
    Rejected (.tag false contents) .conditionMissing
  | sourceMissing {contents : List Char} (h : Tag.classify contents = .directive "each" "") :
    Rejected (.tag false contents) .sourceMissing
  | unknownDirective {contents : List Char} {keyword argument : String}
      (h : Tag.classify contents = .directive keyword argument) (hif : keyword ≠ "if")
      (heach : keyword ≠ "each") : Rejected (.tag false contents) (.unknownDirective keyword)
  | emptyField {contents : List Char} (h : Tag.classify contents = .path "") :
    Rejected (.tag false contents) .emptyField
  | misreadTag {contents : List Char} (h : (Tag.classify contents).continues = true) :
    Rejected (.tag false contents) (.misreadTag (String.ofList (Text.trim contents)))
  | strayTag {contents : List Char} :
    Rejected (.tag true contents) (.strayTag (String.ofList (Text.trim contents)))
  | mismatchedClose {contents : List Char} {expected found : String}
      (h : Tag.classify contents = .close found) (hne : found ≠ expected) :
    Rejected (.tag true contents) (.mismatchedClose expected found)
  | unexpectedTag {contents : List Char} {name : String}
      (h : ∀ found, Tag.classify contents ≠ .close found) :
    Rejected (.tag true contents) (.unexpectedTag (String.ofList (Text.trim contents)) name)
  | junkAfterElse {contents : List Char} {junk : String}
      (h : Tag.classify contents = .otherwise junk) (hne : junk ≠ "") :
    Rejected (.tag true contents) (.junkAfterElse junk)
  | alternativeConditionMissing {contents : List Char}
      (h : Tag.classify contents = .otherwiseIf "") :
    Rejected (.tag true contents) .alternativeConditionMissing
  | conditionEndMissing {contents : List Char} (h : (Tag.classify contents).continues = false) :
    Rejected (.tag true contents) .conditionEndMissing
  | nestingTooDeep {continues : Bool} {contents : List Char} :
    Rejected (.tag continues contents) .nestingTooDeep
  | emptyMarkdown {contents : List Char} (h : String.ofList (Text.trim contents) = "") :
    Rejected (.markdown contents) .emptyMarkdown
  | unclosedTag {fence : Fence} {contents : List Char} :
    Rejected (.broken fence contents none) (.unclosedTag fence)
  | misplacedToken {fence : Fence} {contents : List Char} {found : Token} :
    Rejected (.broken fence contents (some found)) (.misplacedToken found fence)

namespace Draft

variable {counted : Nat} {span : Span} {contents : List Char} {d next : Draft}
  {segment : Segment} {cause : Cause}

/-! ### A single segment -/

lemma eq_of_guarded (h : d.guarded counted next = .error cause) : cause = .nestingTooDeep := by
  rw [guarded] at h
  split_ifs at h
  exact (Except.error.inj h).symm

lemma rejected_of_begin (h : d.begin counted span contents = .error cause) :
    (Segment.tag false contents).Rejected cause := by
  rw [begin] at h
  cases htag : Tag.classify contents with
  | directive keyword argument =>
    simp only [htag] at h
    split_ifs at h with hif hempty heach hempty
    · subst hif hempty
      obtain rfl := Except.error.inj h
      exact .conditionMissing htag
    · obtain rfl := eq_of_guarded h
      exact .nestingTooDeep
    · subst heach hempty
      obtain rfl := Except.error.inj h
      exact .sourceMissing htag
    · obtain rfl := eq_of_guarded h
      exact .nestingTooDeep
    · obtain rfl := Except.error.inj h
      exact .unknownDirective htag hif heach
  | path p =>
    simp only [htag] at h
    split_ifs at h with hempty
    subst hempty
    obtain rfl := Except.error.inj h
    exact .emptyField htag
  | close _ | otherwise _ | otherwiseIf _ =>
    simp only [htag] at h
    obtain rfl := Except.error.inj h
    exact .misreadTag (by rw [htag, Tag.continues])

lemma rejected_of_close {name : String} {before : List Block} {rest : List OpenBlock} {b : Block}
    (h : close contents name before rest b = .error cause) :
    (Segment.tag true contents).Rejected cause := by
  rw [close] at h
  split at h
  · next found htag =>
    split_ifs at h with hname
    obtain rfl := Except.error.inj h
    exact .mismatchedClose htag hname
  · next hclose =>
    obtain rfl := Except.error.inj h
    exact .unexpectedTag hclose

lemma rejected_of_proceed (h : d.proceed counted span contents = .error cause) :
    (Segment.tag true contents).Rejected cause := by
  rw [proceed] at h
  split at h
  · obtain rfl := Except.error.inj h
    exact .strayTag
  · exact rejected_of_close h
  · exact rejected_of_close h
  · cases htag : Tag.classify contents with
    | close found =>
      simp only [htag] at h
      split_ifs at h with hname
      obtain rfl := Except.error.inj h
      exact .mismatchedClose htag hname
    | otherwise junk =>
      simp only [htag] at h
      split_ifs at h with hempty
      obtain rfl := Except.error.inj h
      exact .junkAfterElse htag hempty
    | otherwiseIf condition =>
      simp only [htag] at h
      split_ifs at h with hempty
      · subst hempty
        obtain rfl := Except.error.inj h
        exact .alternativeConditionMissing htag
      · obtain rfl := eq_of_guarded h
        exact .nestingTooDeep
    | directive _ _ | path _ =>
      simp only [htag] at h
      obtain rfl := Except.error.inj h
      exact .conditionEndMissing (by rw [htag, Tag.continues])

/-- What can be at fault with a segment that is not taken. -/
theorem rejected_of_take (h : d.take counted span segment = .error cause) :
    segment.Rejected cause := by
  cases segment with
  | text content => simp [take] at h
  | tag continues contents =>
    cases continues with
    | false => exact rejected_of_begin h
    | true => exact rejected_of_proceed h
  | markdown contents =>
    rw [take] at h
    split_ifs at h with hempty
    obtain rfl := Except.error.inj h
    exact .emptyMarkdown hempty
  | broken fence contents found =>
    cases found with
    | none =>
      obtain rfl := Except.error.inj h
      exact .unclosedTag
    | some t =>
      obtain rfl := Except.error.inj h
      exact .misplacedToken

lemma ne_broken_of_take (h : d.take counted span segment = .ok next) (fence : Fence)
    (contents : List Char) (found : Option Token) : segment ≠ .broken fence contents found := by
  rintro rfl
  cases found <;> simp [take] at h

/-! ### A run -/

/-- A run that fails has come to the end inside a block, or it has rejected a segment.  Then it ends
in the same way whatever is behind that segment. -/
theorem exists_rejected_of_run {p : Position} {segments : List Segment}
    (h : (d.run counted p segments).result = .error cause) :
    (∃ name, cause = .unclosedBlock name) ∨
    ∃ taken segment rest, segments = taken ++ segment :: rest ∧ segment.Rejected cause ∧
      (∀ s ∈ taken, ∀ fence contents found, s ≠ .broken fence contents found) ∧
      ∀ rest', d.run counted p (taken ++ segment :: rest') =
        ⟨.error cause, (d.run counted p segments).position, rest'⟩ := by
  induction segments generalizing p d with
  | nil =>
    rw [run, finish] at h
    split at h
    · simp at h
    · obtain rfl := Except.error.inj h
      exact Or.inl ⟨_, rfl⟩
  | cons segment segments ih =>
    rw [run] at h ⊢
    cases htake : d.take counted ⟨p, p.after segment.source⟩ segment with
    | error cause' =>
      rw [htake] at h
      obtain rfl := Except.error.inj h
      refine Or.inr ⟨[], segment, segments, rfl, rejected_of_take htake, by simp, fun rest' => ?_⟩
      rw [List.nil_append, run, htake]
    | ok next =>
      rw [htake] at h
      rcases ih h with hend | ⟨taken, last, rest, rfl, hrejected, htaken, hrun⟩
      · exact Or.inl hend
      · refine Or.inr ⟨segment :: taken, last, rest, rfl, hrejected, ?_, fun rest' => ?_⟩
        · exact List.forall_mem_cons.2 ⟨ne_broken_of_take htake, htaken⟩
        · rw [List.cons_append, run, htake]
          exact hrun rest'

end Draft

/-- A template has no tree just in case the run over its segments fails. -/
lemma parse_eq_error_iff_run {source name : String} {e : Error} :
    parse source name = .error e ↔
      ∃ cause p unread, Draft.empty.run 0 .start (segments source) = ⟨.error cause, p, unread⟩ ∧
        e = { cause, location := some ⟨name, p.line⟩ } := by
  simp only [parse, Parser.ofSource, Parser.parse]
  generalize Draft.empty.run 0 .start (segments source) = o
  obtain ⟨cause | blocks, p, unread⟩ := o
  · simp [eq_comm]
  · simp

end Template
end FormLetter

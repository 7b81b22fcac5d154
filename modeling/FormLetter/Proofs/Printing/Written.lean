/-
# Blocks written out

A tree can be written out as a template again, and in more than one way: there must be blanks around
the words of a tag, but it does not matter which; a condition without an alternative may have an
`else` with nothing behind it; and an alternative that is a single condition may stand behind an
`else` or go on with the chain as an `elseif`, which has no closing tag of its own.
-/
import FormLetter.Proofs.Grammar.Derivation

namespace FormLetter
namespace Template

open Text

/-- The blocks can be written out as the given text: as a body, or as the ending of a condition of
which they are the alternative. -/
inductive Written : Part → List Block → List Char → Prop
  | nil : Written .body [] []
  | text {content : String} {span : Span} {bs : List Block} {cs : List Char}
      (hbs : Written .body bs cs) :
      Written .body (.text content span :: bs) (content.toList ++ cs)
  | field {path : String} {span : Span} {bs : List Block} {v w cs : List Char}
      (hv : Gap v) (hw : Gap w) (hbs : Written .body bs cs) :
      Written .body (.field path span :: bs) (Fence.plain.enclose (v ++ path.toList ++ w) ++ cs)
  | markdown {path : String} {span : Span} {bs : List Block} {v w cs : List Char}
      (hv : Gap v) (hw : Gap w) (hbs : Written .body bs cs) :
      Written .body (.markdown path span :: bs)
        (Fence.markdown.enclose (v ++ path.toList ++ w) ++ cs)
  | conditional {condition : String} {span : Span} {consequence alternative bs : List Block}
      {v w x cs₁ cs₂ cs : List Char} (hv : Gap v) (hw : Gap w) (hx : Gap x)
      (hconsequence : Written .body consequence cs₁)
      (halternative : Written .ending alternative cs₂) (hbs : Written .body bs cs) :
      Written .body (.conditional condition consequence alternative span :: bs)
        (Fence.plain.enclose (v ++ ("#if".toList ++ w ++ condition.toList) ++ x) ++ cs₁ ++ cs₂ ++
          cs)
  | loop {source : String} {span : Span} {body bs : List Block} {v w x y z cs₁ cs : List Char}
      (hv : Gap v) (hw : Gap w) (hx : Gap x) (hy : Gap y) (hz : Gap z)
      (hbody : Written .body body cs₁) (hbs : Written .body bs cs) :
      Written .body (.loop source body span :: bs)
        (Fence.plain.enclose (v ++ ("#each".toList ++ w ++ source.toList) ++ x) ++ cs₁ ++
          Fence.plain.enclose (y ++ "/each".toList ++ z) ++ cs)
  /-- No alternative. -/
  | close {v w : List Char} (hv : Gap v) (hw : Gap w) :
      Written .ending [] (Fence.plain.enclose (v ++ "/if".toList ++ w))
  | otherwise {alternative : List Block} {v w x y cs : List Char} (hv : Gap v) (hw : Gap w)
      (hx : Gap x) (hy : Gap y) (halternative : Written .body alternative cs) :
      Written .ending alternative
        (Fence.plain.enclose (v ++ "else".toList ++ w) ++ cs ++
          Fence.plain.enclose (x ++ "/if".toList ++ y))
  /-- An alternative that is a single condition may go on with the chain. -/
  | otherwiseIf {condition : String} {span : Span} {consequence alternative : List Block}
      {v w x cs₁ cs₂ : List Char} (hv : Gap v) (hw : Gap w) (hx : Gap x)
      (hconsequence : Written .body consequence cs₁)
      (halternative : Written .ending alternative cs₂) :
      Written .ending [.conditional condition consequence alternative span]
        (Fence.plain.enclose (v ++ ("elseif".toList ++ w ++ condition.toList) ++ x) ++ cs₁ ++ cs₂)

/-- A single blank is enough. -/
lemma gap_space : Gap [' '] := ⟨by simp, by decide⟩

/-- Any blocks can be written out. -/
theorem exists_written : ∀ bs : List Block, ∃ cs, Written .body bs cs
  | [] => ⟨_, .nil⟩
  | .text _ _ :: bs => by
    obtain ⟨_, hbs⟩ := exists_written bs
    exact ⟨_, .text hbs⟩
  | .field _ _ :: bs => by
    obtain ⟨_, hbs⟩ := exists_written bs
    exact ⟨_, .field gap_space gap_space hbs⟩
  | .markdown _ _ :: bs => by
    obtain ⟨_, hbs⟩ := exists_written bs
    exact ⟨_, .markdown gap_space gap_space hbs⟩
  | .conditional _ consequence alternative _ :: bs => by
    obtain ⟨_, hconsequence⟩ := exists_written consequence
    obtain ⟨_, halternative⟩ := exists_written alternative
    obtain ⟨_, hbs⟩ := exists_written bs
    exact ⟨_, .conditional gap_space gap_space gap_space hconsequence
      (.otherwise gap_space gap_space gap_space gap_space halternative) hbs⟩
  | .loop _ body _ :: bs => by
    obtain ⟨_, hbody⟩ := exists_written body
    obtain ⟨_, hbs⟩ := exists_written bs
    exact ⟨_, .loop gap_space gap_space gap_space gap_space gap_space hbody hbs⟩

end Template
end FormLetter

/-
# Segments

Between the tokens of a template and its tree of blocks stand its segments: the runs of text and the
tags, in the order of the template.  A closing delimiter outside a tag is text.  A tag reaches to
the first token that is not a character; if that is not the delimiter that closes it, the tag is
broken off in front of that token.

Segments and tokens are two ways to cut up one text: the texts of the segments, one after the other,
are the text of the tokens (`ofTokens_text`).
-/
import FormLetter.Template.Tag

namespace FormLetter
namespace Template

/-- A run of text or a tag. -/
inductive Segment where
  /-- A run of text, as long as possible. -/
  | text (content : List Char)
  /-- A tag between double braces, and whether its first word closes or goes on with a block. -/
  | tag (continues : Bool) (contents : List Char)
  /-- The tag of a markdown field. -/
  | markdown (contents : List Char)
  /-- A tag that is broken off in front of `found`, or at the end of the template. -/
  | broken (fence : Fence) (contents : List Char) (found : Option Token)
deriving DecidableEq

namespace Segment

/-- What stands in the template for a segment. -/
def source : Segment → List Char
  | text content => content
  | tag _ contents => Fence.plain.opening ++ contents ++ Fence.plain.closing
  | markdown contents => Fence.markdown.opening ++ contents ++ Fence.markdown.closing
  | broken fence contents _ => fence.opening ++ contents

/-- The complete tag of a fence. -/
def closed (fence : Fence) (continues : Bool) (contents : List Char) : Segment :=
  match fence with
  | .plain => tag continues contents
  | .markdown => markdown contents

/-- The segments of a text that is followed by the given ones. -/
def prepend (cs : List Char) : List Segment → List Segment
  | text content :: rest => text (cs ++ content) :: rest
  | rest => text cs :: rest

/-- A tag that is still open: what was read of it, and how it went on. -/
structure Open where
  /-- The characters up to the first other token. -/
  contents : List Char
  /-- Was that token the closing delimiter? -/
  isClosed : Bool
  /-- That token, if the tag is broken off in front of it. -/
  found : Option Token
  /-- The segments behind the tag. -/
  rest : List Segment

/-- The tag that is opened by the given delimiter, and the segments behind it. -/
def Open.complete (fence : Fence) (continues : Bool) (o : Open) : List Segment :=
  if o.isClosed then closed fence continues o.contents :: o.rest
  else broken fence o.contents o.found :: o.rest

mutual

/-- The segments of a row of tokens. -/
def ofTokens : List Token → List Segment
  | [] => []
  | .character c :: ts => prepend [c] (ofTokens ts)
  | .closing fence :: ts => prepend fence.closing (ofTokens ts)
  | .opening fence :: ts => (inTag fence ts).complete fence (continuesBlock ts)

/-- How a tag goes on behind its opening delimiter. -/
def inTag (fence : Fence) : List Token → Open
  | [] => ⟨[], false, none, []⟩
  | .character c :: ts =>
    let o := inTag fence ts
    { o with contents := c :: o.contents }
  | .closing other :: ts =>
    if other = fence then ⟨[], true, none, ofTokens ts⟩
    else ⟨[], false, some (.closing other), prepend other.closing (ofTokens ts)⟩
  | .opening other :: ts =>
    ⟨[], false, some (.opening other), (inTag other ts).complete other (continuesBlock ts)⟩

end

/-! ### The text of the segments -/

theorem prepend_source (cs : List Char) (segments : List Segment) :
    (prepend cs segments).flatMap source = cs ++ segments.flatMap source := by
  cases segments with
  | nil => simp [prepend, source]
  | cons segment rest => cases segment <;> simp [prepend, source]

/-- What stands in the template behind an opening delimiter. -/
def Open.source (fence : Fence) (o : Open) : List Char :=
  o.contents ++ (bif o.isClosed then fence.closing else []) ++ o.rest.flatMap Segment.source

theorem complete_source (fence : Fence) (continues : Bool) (o : Open) :
    (o.complete fence continues).flatMap source = fence.opening ++ o.source fence := by
  cases h : o.isClosed
  · simp [Open.complete, Open.source, source, h]
  · cases fence <;> simp [Open.complete, Open.source, closed, source, h]

/-- The texts of the segments make up the text of the tokens. -/
theorem ofTokens_text (ts : List Token) :
    (ofTokens ts).flatMap source = ts.flatMap Token.text ∧
      ∀ fence, (inTag fence ts).source fence = ts.flatMap Token.text := by
  induction ts with
  | nil => simp [ofTokens, inTag, Open.source]
  | cons t ts ih =>
    obtain ⟨ih, ihTag⟩ := ih
    cases t with
    | character c =>
      refine ⟨by simp [ofTokens, prepend_source, ih, Token.text], fun fence => ?_⟩
      simpa [inTag, Open.source, Token.text] using ihTag fence
    | closing other =>
      refine ⟨by simp [ofTokens, prepend_source, ih, Token.text], fun fence => ?_⟩
      by_cases h : other = fence
      · subst h
        simp [inTag, Open.source, ih, Token.text]
      · simp [inTag, Open.source, h, prepend_source, ih, Token.text]
    | opening other =>
      have h : ((inTag other ts).complete other (continuesBlock ts)).flatMap source =
          other.opening ++ ts.flatMap Token.text := by
        rw [complete_source, ihTag]
      exact ⟨by simp [ofTokens, h, Token.text],
        fun fence => by simp [inTag, Open.source, h, Token.text]⟩

end Segment
end Template
end FormLetter

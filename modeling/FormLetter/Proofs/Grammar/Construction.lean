/-
# Building the tree of a derivation

When the segments that come next are those of a derivation, the draft takes them all and is left
with the blocks of the derivation (`run_segments`): a body adds its blocks to the body that is being
read, and an ending closes the innermost condition, whose alternative is the blocks of the ending.
-/
import FormLetter.Template.Draft
import FormLetter.Proofs.Grammar.Derivation

namespace FormLetter
namespace Template
namespace Draft

/-- The draft can go on with the given part of speech: an ending needs an open condition whose
consequence is being read. -/
def Awaits : Part → Draft → Prop
  | .body, _ => True
  | .ending, d => ∃ before earlier start condition opened,
    d.opened = .consequence before earlier start condition :: opened

/-- The draft that has taken the given blocks as the given part of speech, up to a position. -/
def absorb : Part → List Block → Position → Draft → Draft
  | .body, blocks, _, d => { d with blocks := blocks.reverse ++ d.blocks }
  | .ending, blocks, finish, d =>
    match d.opened with
    | .consequence before earlier start condition :: opened =>
      ⟨Block.inChain finish
        (.conditional condition d.blocks.reverse blocks ⟨start, finish⟩) earlier :: before, opened⟩
    | _ => d

@[simp] lemma absorb_body (blocks : List Block) (finish : Position) (d : Draft) :
    d.absorb .body blocks finish = ⟨blocks.reverse ++ d.blocks, d.opened⟩ := rfl

@[simp] lemma absorb_ending (blocks alternative before : List Block) (earlier : List Arm)
    (start finish : Position) (condition : String) (opened : List OpenBlock) :
    absorb .ending alternative finish
        ⟨blocks, .consequence before earlier start condition :: opened⟩ =
      ⟨Block.inChain finish
        (.conditional condition blocks.reverse alternative ⟨start, finish⟩) earlier :: before,
        opened⟩ := rfl

/-! ### Single segments -/

variable {counted : Nat} {d : Draft}

lemma run_cons {p : Position} {segment : Segment} {segments : List Segment} {next : Draft}
    (h : d.take counted ⟨p, p.after segment.source⟩ segment = .ok next) :
    d.run counted p (segment :: segments) = next.run counted (p.after segment.source) segments := by
  simp only [run, h]

@[simp] lemma source_wording {tag : Tag} (w : Wording tag) (continues : Bool) :
    (Segment.tag continues w.contents).source = w.source := rfl

@[simp] lemma source_markdown (contents : List Char) :
    (Segment.markdown contents).source = Fence.markdown.enclose contents := rfl

@[simp] lemma source_text (content : List Char) : (Segment.text content).source = content := rfl

lemma guarded_of_le {next : Draft} (h : counted + d.depth + 1 ≤ maxDepth) :
    d.guarded counted next = .ok next := by
  rw [guarded, if_neg (by omega)]

@[simp] lemma depth_mk_body (blocks before : List Block) (start : Position) (source : String)
    (opened : List OpenBlock) :
    depth ⟨blocks, .body before start source :: opened⟩ = OpenBlock.depth opened + 1 := by
  simp [depth, OpenBlock.depth, OpenBlock.size, Nat.add_comm]

@[simp] lemma depth_mk_consequence (blocks before : List Block) (earlier : List Arm)
    (start : Position) (condition : String) (opened : List OpenBlock) :
    depth ⟨blocks, .consequence before earlier start condition :: opened⟩ =
      OpenBlock.depth opened + earlier.length + 1 := by
  simp only [depth, OpenBlock.depth, OpenBlock.size]
  omega

@[simp] lemma depth_mk_alternative (blocks before : List Block) (earlier : List Arm) (arm : Arm)
    (opened : List OpenBlock) :
    depth ⟨blocks, .alternative before earlier arm :: opened⟩ =
      OpenBlock.depth opened + earlier.length + 1 := by
  simp only [depth, OpenBlock.depth, OpenBlock.size]
  omega

lemma take_condition {condition : String} (hne : condition ≠ "")
    (tag : Wording (.directive "if" condition)) (span : Span)
    (h : counted + d.depth + 1 ≤ maxDepth) :
    d.take counted span (.tag false tag.contents) =
      .ok ⟨[], .consequence d.blocks [] span.start condition :: d.opened⟩ := by
  simp [take, begin, tag.classified, hne, guarded_of_le h]

lemma take_loop {source : String} (hne : source ≠ "") (tag : Wording (.directive "each" source))
    (span : Span) (h : counted + d.depth + 1 ≤ maxDepth) :
    d.take counted span (.tag false tag.contents) =
      .ok ⟨[], .body d.blocks span.start source :: d.opened⟩ := by
  simp [take, begin, tag.classified, hne, guarded_of_le h]

lemma take_field {path : String} (hne : path ≠ "") (tag : Wording (.path path)) (span : Span) :
    d.take counted span (.tag false tag.contents) = .ok (d.push (.field path span)) := by
  simp [take, begin, tag.classified, hne]

lemma take_markdown {contents : List Char} (hne : Text.trim contents ≠ []) (span : Span) :
    d.take counted span (.markdown contents) =
      .ok (d.push (.markdown (String.ofList (Text.trim contents)) span)) := by
  simp [take, hne]

lemma take_close_body (blocks before : List Block) (start : Position) (source : String)
    (opened : List OpenBlock) (tag : Wording (.close "each")) (span : Span) :
    take counted span ⟨blocks, .body before start source :: opened⟩ (.tag true tag.contents) =
      .ok ⟨.loop source blocks.reverse ⟨start, span.finish⟩ :: before, opened⟩ := by
  simp [take, proceed, close, tag.classified]

variable (blocks before : List Block) (earlier : List Arm) (start : Position) (condition : String)
  (opened : List OpenBlock) (span : Span)

lemma take_close_consequence (tag : Wording (.close "if")) :
    take counted span ⟨blocks, .consequence before earlier start condition :: opened⟩
        (.tag true tag.contents) =
      .ok ⟨Block.inChain span.finish
        (.conditional condition blocks.reverse [] ⟨start, span.finish⟩) earlier :: before,
        opened⟩ := by
  simp [take, proceed, tag.classified]

lemma take_otherwise (tag : Wording (.otherwise "")) :
    take counted span ⟨blocks, .consequence before earlier start condition :: opened⟩
        (.tag true tag.contents) =
      .ok ⟨[], .alternative before earlier ⟨start, condition, blocks.reverse⟩ :: opened⟩ := by
  simp [take, proceed, tag.classified]

lemma take_otherwiseIf {next : String} (hne : next ≠ "") (tag : Wording (.otherwiseIf next))
    (h : counted + OpenBlock.depth opened + earlier.length + 2 ≤ maxDepth) :
    take counted span ⟨blocks, .consequence before earlier start condition :: opened⟩
        (.tag true tag.contents) =
      .ok ⟨[], .consequence before (⟨start, condition, blocks.reverse⟩ :: earlier) span.start
        next :: opened⟩ := by
  have hroom : counted + depth ⟨blocks, .consequence before earlier start condition :: opened⟩ + 1 ≤
      maxDepth := by
    rw [depth_mk_consequence]
    omega
  simp [take, proceed, tag.classified, hne, guarded_of_le hroom]

lemma take_close_alternative (arm : Arm) (tag : Wording (.close "if")) :
    take counted span ⟨blocks, .alternative before earlier arm :: opened⟩ (.tag true tag.contents) =
      .ok ⟨Block.inChain span.finish
        (.conditional arm.condition arm.consequence blocks.reverse ⟨arm.start, span.finish⟩)
        earlier :: before, opened⟩ := by
  simp [take, proceed, close, tag.classified]

/-! ### Whole derivations -/

/-- **Segments of a derivation.**  A draft that can go on with a part of speech takes all segments
of a derivation of that part, as long as there is room for its depth, and has then absorbed its
blocks. -/
theorem run_segments {n : Part} (t : Derivation n) {counted : Nat} {d : Draft} (p : Position)
    (rest : List Segment) (hd : d.Awaits n) (hroom : counted + d.depth + t.depth ≤ maxDepth) :
    d.run counted p (t.segments ++ rest) =
      (d.absorb n (t.blocks p) (p.after t.source)).run counted (p.after t.source) rest := by
  -- a tag is taken by its lemma above, and what stands behind it by induction, on the draft that
  -- the tag leaves
  induction t generalizing d p rest with
  | nil => rfl
  | text run hne hrun rest' ih =>
    rw [Derivation.segments, List.cons_append, run_cons rfl,
      ih _ _ (by trivial) (by exact hroom)]
    simp [push, Derivation.blocks, Position.after_append]
  | field path hne tag rest' ih =>
    rw [Derivation.segments, List.cons_append, run_cons (take_field hne tag _),
      ih _ _ (by trivial) (by exact hroom)]
    simp [push, Derivation.blocks, Position.after_append]
  | markdown contents hne rest' ih =>
    rw [Derivation.segments, List.cons_append, run_cons (take_markdown hne _),
      ih _ _ (by trivial) (by exact hroom)]
    simp [push, Derivation.blocks, Position.after_append]
  | conditional condition hne tag consequence ending rest' ih₁ ih₂ ih₃ =>
    have hdepth : d.depth = OpenBlock.depth d.opened := rfl
    simp only [Derivation.depth] at hroom
    rw [Derivation.segments, List.cons_append, List.append_assoc, List.append_assoc,
      run_cons (take_condition hne tag _ (by omega)),
      ih₁ _ _ (by trivial) (by simp; omega), absorb_body,
      ih₂ _ _ (by exact ⟨_, _, _, _, _, rfl⟩) (by simp; omega), absorb_ending,
      ih₃ _ _ (by trivial) (by simp [depth] at *; omega)]
    simp [Derivation.blocks, Position.after_append, Block.inChain]
  | loop source hne tag body closing rest' ih₁ ih₂ =>
    have hdepth : d.depth = OpenBlock.depth d.opened := rfl
    simp only [Derivation.depth] at hroom
    rw [Derivation.segments, List.cons_append, List.append_assoc,
      run_cons (take_loop hne tag _ (by omega)),
      ih₁ _ _ (by trivial) (by simp; omega), absorb_body, List.cons_append,
      run_cons (take_close_body _ _ _ _ _ closing _),
      ih₂ _ _ (by trivial) (by simp [depth] at *; omega)]
    simp [Derivation.blocks, Position.after_append]
  | close tag =>
    obtain ⟨blocks, opened⟩ := d
    obtain ⟨before, earlier, start, condition, opened, rfl⟩ := hd
    rw [Derivation.segments, List.cons_append, run_cons (take_close_consequence _ _ _ _ _ _ _ tag)]
    simp [Derivation.blocks]
  | otherwise tag alternative closing ih =>
    obtain ⟨blocks, opened⟩ := d
    obtain ⟨before, earlier, start, condition, opened, rfl⟩ := hd
    rw [Derivation.segments, List.cons_append, List.append_assoc,
      run_cons (take_otherwise _ _ _ _ _ _ _ tag),
      ih _ _ (by trivial) (by simpa [Derivation.depth] using hroom), absorb_body,
      List.cons_append, run_cons (take_close_alternative _ _ _ _ _ _ closing)]
    simp [Derivation.blocks, Position.after_append]
  | otherwiseIf condition hne tag consequence ending ih₁ ih₂ =>
    obtain ⟨blocks, opened⟩ := d
    obtain ⟨before, earlier, start, first, opened, rfl⟩ := hd
    simp only [Derivation.depth, depth_mk_consequence] at hroom
    rw [Derivation.segments, List.cons_append, List.append_assoc,
      run_cons (take_otherwiseIf _ _ _ _ _ _ _ hne tag (by omega)),
      ih₁ _ _ (by trivial) (by simp; omega), absorb_body,
      ih₂ _ _ (by exact ⟨_, _, _, _, _, rfl⟩) (by simp; omega), absorb_ending]
    simp [Derivation.blocks, Position.after_append, Block.inChain]

end Draft
end Template
end FormLetter

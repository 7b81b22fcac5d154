/-
# Trees under construction in another place

What the construction of a tree does with the segments in front of it does not depend on where they
stand: if all places are moved alike, each step and so the whole run ends as before, with all places
moved (`take_relocate`, `run_relocate`).
-/
import FormLetter.Template.Parser
import FormLetter.Proofs.Placement

namespace FormLetter
namespace Template

variable (f : Position → Position)

namespace Block

lemma relocateAll_eq_map (blocks : List Block) : relocateAll f blocks = blocks.map (relocate f) := by
  induction blocks with
  | nil => rfl
  | cons b blocks ih => rw [relocateAll, ih, List.map_cons]

@[simp] lemma relocateAll_reverse (blocks : List Block) :
    relocateAll f blocks.reverse = (relocateAll f blocks).reverse := by
  simp [relocateAll_eq_map]

end Block

/-- The condition with all places moved. -/
def Arm.relocate (arm : Arm) : Arm :=
  ⟨f arm.start, arm.condition, Block.relocateAll f arm.consequence⟩

/-- The open block with all places moved. -/
def OpenBlock.relocate : OpenBlock → OpenBlock
  | consequence before earlier start condition =>
    consequence (Block.relocateAll f before) (earlier.map (Arm.relocate f)) (f start) condition
  | alternative before earlier arm =>
    alternative (Block.relocateAll f before) (earlier.map (Arm.relocate f)) (arm.relocate f)
  | body before start source => body (Block.relocateAll f before) (f start) source

namespace Draft

/-- The draft with all places moved. -/
def relocate (d : Draft) : Draft :=
  ⟨Block.relocateAll f d.blocks, d.opened.map (OpenBlock.relocate f)⟩

/-- The end of a construction with all places moved. -/
def Outcome.relocate (o : Outcome) : Outcome :=
  ⟨o.result.map (Block.relocateAll f), f o.position, o.unread⟩

@[simp] lemma depth_relocate (d : Draft) : (d.relocate f).depth = d.depth := by
  obtain ⟨blocks, opened⟩ := d
  simp only [depth, relocate]
  induction opened with
  | nil => rfl
  | cons o opened ih =>
    cases o <;> simp [OpenBlock.depth, OpenBlock.relocate, OpenBlock.size, ih]

lemma relocate_inChain (finish : Position) (b : Block) (earlier : List Arm) :
    (b.inChain finish earlier).relocate f =
      (b.relocate f).inChain (f finish) (earlier.map (Arm.relocate f)) := by
  induction earlier generalizing b with
  | nil => rfl
  | cons arm earlier ih =>
    simp only [Block.inChain, List.foldl_cons, List.map_cons] at ih ⊢
    rw [ih]
    rfl

/-! ### One step -/

variable {counted : Nat} {span : Span} {contents : List Char} (d : Draft)

lemma guarded_relocate {next next' : Draft} (h : next.relocate f = next') :
    (d.relocate f).guarded counted next' = (d.guarded counted next).map (relocate f) := by
  subst h
  rw [guarded, guarded, depth_relocate]
  split <;> rfl

lemma begin_relocate :
    (d.relocate f).begin counted ⟨f span.start, f span.finish⟩ contents =
      (d.begin counted span contents).map (relocate f) := by
  rw [begin, begin]
  cases Tag.classify contents with
  | directive keyword argument =>
    simp only
    split_ifs
    · rfl
    · exact guarded_relocate f d rfl
    · rfl
    · exact guarded_relocate f d rfl
    · rfl
  | path path =>
    simp only
    split_ifs <;> rfl
  | _ => rfl

lemma close_relocate {name : String} {before : List Block} {rest : List OpenBlock}
    {b b' : Block} (h : b.relocate f = b') :
    close contents name (Block.relocateAll f before) (rest.map (OpenBlock.relocate f)) b' =
      (close contents name before rest b).map (relocate f) := by
  subst h
  rw [close, close]
  cases Tag.classify contents with
  | close found =>
    simp only
    split_ifs <;> rfl
  | _ => rfl

lemma proceed_relocate :
    (d.relocate f).proceed counted ⟨f span.start, f span.finish⟩ contents =
      (d.proceed counted span contents).map (relocate f) := by
  obtain ⟨blocks, _ | ⟨o, rest⟩⟩ := d
  · rfl
  · cases o with
    | body before start source =>
      exact close_relocate f (by simp [relocate, Block.relocate])
    | alternative before earlier arm =>
      exact close_relocate f (by simp [relocate, relocate_inChain, Block.relocate, Arm.relocate])
    | consequence before earlier start condition =>
      simp only [proceed, relocate, List.map_cons, OpenBlock.relocate]
      cases Tag.classify contents with
      | close found =>
        simp only
        split_ifs
        · simp [Except.map, relocate, Block.relocateAll, relocate_inChain, Block.relocate]
        · rfl
      | otherwise junk =>
        simp only
        split_ifs
        · simp [Except.map, relocate, Block.relocateAll, OpenBlock.relocate, Arm.relocate]
        · rfl
      | otherwiseIf next =>
        simp only
        split_ifs
        · rfl
        · refine guarded_relocate f ⟨blocks, .consequence before earlier start condition :: rest⟩ ?_
          simp [relocate, Block.relocateAll, OpenBlock.relocate, Arm.relocate]
      | _ => rfl

theorem take_relocate (counted : Nat) (span : Span) (segment : Segment) :
    (d.relocate f).take counted ⟨f span.start, f span.finish⟩ segment =
      (d.take counted span segment).map (relocate f) := by
  cases segment with
  | text content => rfl
  | tag continues contents =>
    cases continues with
    | true => exact proceed_relocate f d
    | false => exact begin_relocate f d
  | markdown contents =>
    simp only [take]
    split_ifs <;> rfl
  | broken fence contents found => cases found <;> rfl

/-! ### A whole run -/

lemma finish_relocate : (d.relocate f).finish = d.finish.map (Block.relocateAll f) := by
  obtain ⟨blocks, _ | ⟨o, rest⟩⟩ := d
  · simp [finish, relocate, Except.map]
  · cases o <;> rfl

variable {f}

/-- **Moving.**  A run over the same segments in another place ends as it did, in the other place. -/
theorem run_relocate {p q : Position} (hf : Position.Moves f p q) (segments : List Segment) :
    (d.relocate f).run counted q segments = (d.run counted p segments).relocate f := by
  induction segments generalizing d p q with
  | nil => simp only [run, Outcome.relocate, finish_relocate, hf.start]
  | cons segment segments ih =>
    have hbehind := hf.behind segment.source
    have htake := take_relocate f d counted ⟨p, p.after segment.source⟩ segment
    simp only [hf.start, hbehind.start] at htake
    rw [run, run, htake]
    cases d.take counted ⟨p, p.after segment.source⟩ segment with
    | error cause => simp [Except.map, Outcome.relocate, hbehind.start]
    | ok next => exact ih next hbehind

end Draft
end Template
end FormLetter

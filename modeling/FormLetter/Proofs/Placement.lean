/-
# Blocks in another place

A tree that is read from a piece of a template differs from the part of the whole tree that is read
from the same piece in one way only: its spans are counted from the start of the piece.  Blocks are
moved by a map of positions, and a derivation gives the moved blocks wherever the map sends the
positions of one text to those of the text in the other place (`blocks_relocate`).  There are two
such maps, `Position.plus` away from the start of a template and `Position.relativeTo` back to it.
-/
import FormLetter.Proofs.Grammar.Derivation

namespace FormLetter
namespace Template

namespace Position

/-- The place at position `p` of a text that starts at `q`. -/
def plus (q p : Position) : Position where
  line := q.line + p.line - 1
  column := if p.line = 1 then q.column + p.column else p.column
  offset := q.offset + p.offset

/-- The place `p`, seen from the start `q` of a text that it belongs to. -/
def relativeTo (p q : Position) : Position where
  line := p.line - q.line + 1
  column := if p.line = q.line then p.column - q.column else p.column
  offset := p.offset - q.offset

@[simp] lemma plus_start (q : Position) : q.plus start = q := by
  simp [plus, start]

lemma plus_next {p : Position} (hp : 1 ≤ p.line) (q : Position) (c : Char) :
    (q.plus p).next c = q.plus (p.next c) := by
  -- only on its first line does a text start behind the column where it is put
  have hadd : q.line + p.line - 1 + 1 = q.line + (p.line + 1) - 1 := by omega
  have hne : p.line ≠ 0 := by omega
  by_cases hc : c = '\n'
  · subst hc
    simp [next, plus, hadd, hne, Nat.add_assoc]
  · by_cases hline : p.line = 1 <;> simp [next, plus, hc, hline, Nat.add_assoc]

lemma line_le_next (p : Position) (c : Char) : p.line ≤ (p.next c).line := by
  simp only [next]
  split <;> omega

lemma plus_after_of_line {p : Position} (hp : 1 ≤ p.line) (q : Position) (cs : List Char) :
    (q.plus p).after cs = q.plus (p.after cs) := by
  induction cs generalizing p with
  | nil => rfl
  | cons c cs ih =>
    have hnext : 1 ≤ (p.next c).line := hp.trans (line_le_next p c)
    simp only [after, List.foldl_cons] at ih ⊢
    rw [plus_next hp, ih hnext]

/-- The positions of a text that starts at `q`. -/
theorem plus_after (q : Position) (cs : List Char) : q.plus (start.after cs) = q.after cs := by
  have h := plus_after_of_line (by decide : 1 ≤ start.line) q cs
  rw [plus_start] at h
  exact h.symm

lemma line_le_after (p : Position) (cs : List Char) : p.line ≤ (p.after cs).line := by
  induction cs generalizing p with
  | nil => exact le_refl _
  | cons c cs ih => exact (line_le_next p c).trans (ih (p.next c))

lemma relativeTo_plus {p : Position} (hp : 1 ≤ p.line) (q : Position) :
    (q.plus p).relativeTo q = p := by
  obtain ⟨line, column, offset⟩ := p
  have hline : q.line + line - 1 - q.line + 1 = line := by
    simp only at hp
    omega
  have hfirst : (q.line + line - 1 = q.line) ↔ line = 1 := by
    simp only at hp
    omega
  simp only [plus, relativeTo, hline, hfirst, Nat.add_sub_cancel_left]
  split <;> simp

/-- The positions of a text that starts at `q`, seen from there. -/
theorem relativeTo_after (q : Position) (cs : List Char) :
    (q.after cs).relativeTo q = start.after cs := by
  rw [← plus_after, relativeTo_plus (line_le_after start cs)]

lemma line_plus {q : Position} (hq : 1 ≤ q.line) (p : Position) :
    (q.plus p).line = p.line + (q.line - 1) := by
  simp only [plus]
  omega

/-- The line behind a text is further down by the number of its line feeds. -/
theorem line_after (p : Position) (cs : List Char) :
    (p.after cs).line = p.line + cs.count '\n' := by
  induction cs generalizing p with
  | nil => rfl
  | cons c cs ih =>
    have hfirst : (p.next c).line = p.line + if c = '\n' then 1 else 0 := by
      by_cases hc : c = '\n' <;> simp [next, hc]
    rw [show p.after (c :: cs) = (p.next c).after cs from rfl, ih, hfirst, List.count_cons]
    simp only [beq_iff_eq]
    omega

/-- The map sends the positions of each text that starts at `p` to those of the text at `q`. -/
def Moves (f : Position → Position) (p q : Position) : Prop :=
  ∀ cs, f (p.after cs) = q.after cs

lemma Moves.start {f : Position → Position} {p q : Position} (h : Moves f p q) : f p = q := h []

/-- Behind a part of the text the map does what it does in front of it. -/
lemma Moves.behind {f : Position → Position} {p q : Position} (h : Moves f p q) (ds : List Char) :
    Moves f (p.after ds) (q.after ds) := by
  intro cs
  rw [← after_append, ← after_append]
  exact h _

lemma moves_plus (q : Position) : Moves q.plus .start q := plus_after q

lemma moves_relativeTo (q : Position) : Moves (·.relativeTo q) q .start := relativeTo_after q

end Position

/-! ### Moved blocks -/

namespace Block

mutual

/-- The block with all its spans moved. -/
def relocate (f : Position → Position) : Block → Block
  | text content span => text content ⟨f span.start, f span.finish⟩
  | field path span => field path ⟨f span.start, f span.finish⟩
  | markdown path span => markdown path ⟨f span.start, f span.finish⟩
  | conditional condition consequence alternative span =>
    conditional condition (relocateAll f consequence) (relocateAll f alternative)
      ⟨f span.start, f span.finish⟩
  | loop source body span => loop source (relocateAll f body) ⟨f span.start, f span.finish⟩

/-- The blocks with all their spans moved. -/
def relocateAll (f : Position → Position) : List Block → List Block
  | [] => []
  | b :: blocks => relocate f b :: relocateAll f blocks

end

@[simp] lemma span_relocate (f : Position → Position) (b : Block) :
    (relocate f b).span = ⟨f b.span.start, f b.span.finish⟩ := by
  cases b <;> rfl

mutual

@[simp] lemma relocate_id (b : Block) : relocate id b = b := by
  cases b with
  | conditional condition consequence alternative span =>
    simp [relocate, relocateAll_id consequence, relocateAll_id alternative]
  | loop source body span => simp [relocate, relocateAll_id body]
  | _ => rfl

@[simp] lemma relocateAll_id (blocks : List Block) : relocateAll id blocks = blocks := by
  cases blocks with
  | nil => rfl
  | cons b blocks => rw [relocateAll, relocate_id b, relocateAll_id blocks]

end

/-- The blocks without the places that they were read from. -/
def shapes (blocks : List Block) : List Block := relocateAll (fun _ => .start) blocks

section

variable (s : String) (body alternative blocks : List Block) (span : Span)

@[simp] lemma shapes_text : shapes (text s span :: blocks) =
    text s ⟨.start, .start⟩ :: shapes blocks := rfl

@[simp] lemma shapes_field : shapes (field s span :: blocks) =
    field s ⟨.start, .start⟩ :: shapes blocks := rfl

@[simp] lemma shapes_markdown : shapes (markdown s span :: blocks) =
    markdown s ⟨.start, .start⟩ :: shapes blocks := rfl

@[simp] lemma shapes_conditional : shapes (conditional s body alternative span :: blocks) =
    conditional s (shapes body) (shapes alternative) ⟨.start, .start⟩ :: shapes blocks := rfl

@[simp] lemma shapes_loop : shapes (loop s body span :: blocks) =
    loop s (shapes body) ⟨.start, .start⟩ :: shapes blocks := rfl

end

end Block

/-- The blocks of a derivation in another place. -/
theorem Derivation.blocks_relocate {n : Part} (d : Derivation n) {f : Position → Position}
    {p q : Position} (hf : Position.Moves f p q) :
    Block.relocateAll f (d.blocks p) = d.blocks q := by
  induction d generalizing p q with
  | nil => rfl
  | text run hne hrun rest ih =>
    simp only [blocks, Block.relocateAll, Block.relocate, hf.start, (hf.behind _).start]
    rw [ih (hf.behind _)]
  | field path hne tag rest ih =>
    simp only [blocks, Block.relocateAll, Block.relocate, hf.start, (hf.behind _).start]
    rw [ih (hf.behind _)]
  | markdown contents hne rest ih =>
    simp only [blocks, Block.relocateAll, Block.relocate, hf.start, (hf.behind _).start]
    rw [ih (hf.behind _)]
  | conditional condition hne tag consequence ending rest ih₁ ih₂ ih₃ =>
    -- each part of the block is moved like the text behind what stands in front of it
    have hfinish := (((hf.behind tag.source).behind consequence.source).behind ending.source)
    simp only [blocks, Block.relocateAll, Block.relocate, hf.start, hfinish.start]
    rw [ih₁ (hf.behind _), ih₂ ((hf.behind _).behind _), ih₃ hfinish]
  | loop source hne tag body closing rest ih₁ ih₂ =>
    have hfinish := (((hf.behind tag.source).behind body.source).behind closing.source)
    simp only [blocks, Block.relocateAll, Block.relocate, hf.start, hfinish.start]
    rw [ih₁ (hf.behind _), ih₂ hfinish]
  | close tag => rfl
  | otherwise tag alternative closing ih => exact ih (hf.behind _)
  | otherwiseIf condition hne tag consequence ending ih₁ ih₂ =>
    have hfinish := (((hf.behind tag.source).behind consequence.source).behind ending.source)
    simp only [blocks, Block.relocateAll, Block.relocate, hf.start, hfinish.start]
    rw [ih₁ (hf.behind _), ih₂ ((hf.behind _).behind _)]

end Template
end FormLetter

/-
# The nesting allowance of later calls

How many blocks are open behind a row of segments can be told from the tags alone (`openBlocks`): a
directive opens a block, an alternative under a condition of its own opens one more in the innermost
chain, and a closing tag closes the innermost block with its chain.  A call stops at the first tag
that would open more blocks than it is allowed to.

A new parser allows `Draft.maxDepth` blocks.  The block that is one too many stays counted when the
call ends, although the next call knows nothing of it.  So each such call takes one block from what
all later calls are allowed (`allowance_behindCalls`), and a call can fail on a row of tags that opens
no more blocks than a new parser allows (`allowance_conditionsRow`).
-/
import Mathlib.Algebra.GroupWithZero.Nat
import FormLetter.Proofs.Grammar.Construction
import FormLetter.Proofs.Resuming.Calls

namespace FormLetter
namespace Template

/-- The open blocks behind a tag.  For each of them, innermost first, there stands how many blocks the
tag closes that closes it: one, and one more for each further condition of the chain. -/
def Tag.nest (sizes : List Nat) : Tag → List Nat
  | directive _ _ => 1 :: sizes
  | close _ => sizes.tail
  | otherwise _ => sizes
  | otherwiseIf _ => sizes.modifyHead (· + 1)
  | path _ => sizes

/-- The open blocks behind a segment. -/
def Segment.nest (sizes : List Nat) : Segment → List Nat
  | text _ => sizes
  | tag _ contents => (Tag.classify contents).nest sizes
  | markdown _ => sizes
  | broken _ _ _ => sizes

lemma Segment.nest_tag {contents : List Char} {t : Tag} (h : Tag.classify contents = t)
    (continues : Bool) (sizes : List Nat) : (tag continues contents).nest sizes = t.nest sizes := by
  rw [nest, h]

/-- How many blocks are open behind the segments. -/
def openBlocks (segments : List Segment) : Nat := (segments.foldl Segment.nest []).sum

namespace Draft

/-- The sizes of the open blocks, innermost first. -/
def sizes (d : Draft) : List Nat := d.opened.map OpenBlock.size

lemma depth_eq_sum (d : Draft) : d.depth = d.sizes.sum := by
  obtain ⟨blocks, opened⟩ := d
  simp only [depth, sizes]
  induction opened with
  | nil => rfl
  | cons o opened ih => rw [OpenBlock.depth, ih, List.map_cons, List.sum_cons]

/-! ### One step -/

section

variable {counted : Nat} {d next : Draft} {segment : Segment} {span : Span} {contents : List Char}

/-- What a step does to the open blocks.  It keeps within the allowance, and if a block would be one
too many, the allowance was used up. -/
def Nests (counted : Nat) (d : Draft) (segment : Segment) : Except Cause Draft → Prop
  | .ok next => next.sizes = segment.nest d.sizes ∧
      (d.depth ≤ maxDepth - counted → next.depth ≤ maxDepth - counted)
  | .error cause => cause = .nestingTooDeep →
      maxDepth - counted ≤ d.depth ∧ (segment.nest d.sizes).sum = d.depth + 1

/-- A step that fails for another reason. -/
lemma nests_error {cause : Cause} (h : cause ≠ .nestingTooDeep) :
    Nests counted d segment (.error cause) :=
  fun hcause => absurd hcause h

/-- A step that opens no block. -/
lemma nests_ok (hsizes : next.sizes = segment.nest d.sizes) (hdepth : next.depth ≤ d.depth) :
    Nests counted d segment (.ok next) :=
  ⟨hsizes, hdepth.trans⟩

/-- A step that opens a block. -/
lemma nests_guarded (hsizes : next.sizes = segment.nest d.sizes) (hdepth : next.depth = d.depth + 1) :
    Nests counted d segment (d.guarded counted next) := by
  rw [guarded]
  split_ifs with hroom
  · intro _
    refine ⟨by omega, ?_⟩
    rw [← hsizes, ← depth_eq_sum, hdepth]
  · exact ⟨hsizes, fun _ => by omega⟩

lemma nests_begin (continues : Bool) :
    Nests counted d (.tag continues contents) (d.begin counted span contents) := by
  rw [begin]
  cases htag : Tag.classify contents with
  | directive keyword argument =>
    have hnest := Segment.nest_tag htag continues d.sizes
    simp only
    split_ifs
    · exact nests_error (by simp)
    · exact nests_guarded hnest.symm (depth_mk_consequence ..)
    · exact nests_error (by simp)
    · exact nests_guarded hnest.symm (depth_mk_body ..)
    · exact nests_error (by simp)
  | path path =>
    simp only
    split_ifs
    · exact nests_error (by simp)
    · exact nests_ok (Segment.nest_tag htag continues d.sizes).symm le_rfl
  | close name => exact nests_error (by simp)
  | otherwise junk => exact nests_error (by simp)
  | otherwiseIf condition => exact nests_error (by simp)

section

variable {blocks : List Block} {o : OpenBlock} {rest : List OpenBlock}

/-- A closing tag closes the innermost block. -/
lemma nests_closed {found : String} (htag : Tag.classify contents = .close found) (continues : Bool)
    (finished : List Block) :
    Nests counted ⟨blocks, o :: rest⟩ (.tag continues contents) (.ok ⟨finished, rest⟩) := by
  refine nests_ok (Segment.nest_tag htag continues (o.size :: rest.map OpenBlock.size)).symm ?_
  simp [depth, OpenBlock.depth]

lemma nests_close {name : String} {before : List Block} {b : Block} (continues : Bool) :
    Nests counted ⟨blocks, o :: rest⟩ (.tag continues contents)
      (close contents name before rest b) := by
  rw [close]
  cases htag : Tag.classify contents with
  | close found =>
    simp only
    split_ifs
    · exact nests_closed htag continues _
    · exact nests_error (by simp)
  | _ => exact nests_error (by simp)

end

lemma nests_proceed (continues : Bool) :
    Nests counted d (.tag continues contents) (d.proceed counted span contents) := by
  obtain ⟨blocks, _ | ⟨o, rest⟩⟩ := d
  · exact nests_error (by simp)
  cases o with
  | body before start source => exact nests_close continues
  | alternative before earlier arm => exact nests_close continues
  | consequence before earlier start condition =>
    rw [proceed]
    cases htag : Tag.classify contents with
    | close found =>
      simp only
      split_ifs
      · exact nests_closed htag continues _
      · exact nests_error (by simp)
    | otherwise junk =>
      simp only
      split_ifs
      · refine nests_ok (Segment.nest_tag htag continues _).symm ?_
        simp [depth, OpenBlock.depth, OpenBlock.size]
      · exact nests_error (by simp)
    | otherwiseIf next =>
      simp only
      split_ifs
      · exact nests_error (by simp)
      · have hnest :=
          Segment.nest_tag htag continues ((earlier.length + 1) :: rest.map OpenBlock.size)
        refine nests_guarded hnest.symm ?_
        simp only [depth_mk_consequence, List.length_cons]
        omega
    | directive keyword argument => exact nests_error (by simp)
    | path path => exact nests_error (by simp)

theorem nests_take : Nests counted d segment (d.take counted span segment) := by
  cases segment with
  | text content => exact nests_ok rfl le_rfl
  | tag continues contents =>
    cases continues with
    | true => exact nests_proceed true
    | false => exact nests_begin false
  | markdown contents =>
    simp only [take]
    split_ifs
    · exact nests_error (by simp)
    · exact nests_ok rfl le_rfl
  | broken fence contents found => cases found <;> exact nests_error (by simp)

end

/-! ### A whole run -/

/-- What a run does to the open blocks: up to its last segment it keeps within the allowance, and if
a block would be one too many, it is the next one. -/
structure NestsAll (counted : Nat) (d : Draft) (segments taken : List Segment) (o : Outcome) :
    Prop where
  eq_append : segments = taken ++ o.unread
  sum_le : ∀ front segment, front ++ [segment] <+: taken →
    (front.foldl Segment.nest d.sizes).sum ≤ maxDepth - counted
  sum_eq : o.result = .error .nestingTooDeep →
    (taken.foldl Segment.nest d.sizes).sum = maxDepth - counted + 1

theorem exists_nestsAll (counted : Nat) (p : Position) (d : Draft) (segments : List Segment)
    (hd : d.depth ≤ maxDepth - counted) :
    ∃ taken, NestsAll counted d segments taken (d.run counted p segments) := by
  induction segments generalizing p d with
  | nil =>
    refine ⟨[], rfl, by simp, fun h => ?_⟩
    obtain ⟨blocks, _ | ⟨o, rest⟩⟩ := d <;> simp [run, finish] at h
  | cons segment segments ih =>
    have hsum := d.depth_eq_sum
    have hstep : Nests counted d segment (d.take counted ⟨p, p.after segment.source⟩ segment) :=
      nests_take
    rw [run]
    cases htake : d.take counted ⟨p, p.after segment.source⟩ segment with
    | error cause =>
      rw [htake] at hstep
      refine ⟨[segment], rfl, ?_, fun h => ?_⟩
      · rintro (_ | ⟨other, front⟩) last hfront
        · rw [List.foldl_nil, ← hsum]
          exact hd
        · obtain ⟨-, hrest⟩ := List.cons_prefix_cons.1 hfront
          simp at hrest
      · obtain rfl : cause = .nestingTooDeep := by simpa using h
        obtain ⟨hroom, hnest⟩ := hstep rfl
        rw [List.foldl_cons, List.foldl_nil, hnest]
        omega
    | ok next =>
      rw [htake] at hstep
      obtain ⟨hsizes, hdepth⟩ := hstep
      obtain ⟨taken, htaken⟩ := ih (p.after segment.source) next (hdepth hd)
      refine ⟨segment :: taken, congrArg (segment :: ·) htaken.eq_append, ?_, fun h => ?_⟩
      · rintro (_ | ⟨other, front⟩) last hfront
        · rw [List.foldl_nil, ← hsum]
          exact hd
        · obtain ⟨rfl, hrest⟩ := List.cons_prefix_cons.1 hfront
          rw [List.foldl_cons, ← hsizes]
          exact htaken.sum_le front last hrest
      · rw [List.foldl_cons, ← hsizes]
        exact htaken.sum_eq h

end Draft

namespace Parser

/-- **The allowance.**  Behind a number of calls, as many blocks may be open as a new parser allows,
less one for each call that has failed since a block would have been one too many: each of these, and
no other call, leaves a block counted.  A call keeps within the allowance up to its last segment, and
if it fails since a block would be one too many, that block is the next one. -/
theorem allowance_behindCalls (source name : String) (n : Nat) :
    let parser := (ofSource source name).behindCalls
    let allowance := Draft.maxDepth - (List.range n).countP fun k => tooDeep (parser k).parse.1
    (parser (n + 1)).counted = (parser n).counted + (tooDeep (parser n).parse.1).toNat ∧
    ∃ read, (parser n).unread = read ++ (parser (n + 1)).unread ∧
      (∀ front segment, front ++ [segment] <+: read → openBlocks front ≤ allowance) ∧
      (tooDeep (parser n).parse.1 = true → openBlocks read = allowance + 1) := by
  intro parser allowance
  have hcounted : Draft.maxDepth - (parser n).counted = allowance := by
    rw [counted_behindCalls, ofSource, Nat.zero_add]
    rfl
  obtain ⟨read, hread⟩ := Draft.exists_nestsAll (parser n).counted (parser n).position .empty
    (parser n).unread (Nat.zero_le _)
  change Draft.NestsAll _ _ _ _ (parser n).outcome at hread
  refine ⟨counted_parse (parser n), read, ?_, fun front segment hfront => ?_, fun h => ?_⟩
  · change _ = read ++ (parser n).parse.2.unread
    rw [unread_parse]
    exact hread.eq_append
  · rw [← hcounted]
    exact hread.sum_le front segment hfront
  · rw [← hcounted]
    exact hread.sum_eq (result_of_tooDeep h)

/-! ### A row of open conditions -/

/-- The tag that opens the condition `x`. -/
def conditionTag : Wording (.directive "if" "x") := ⟨['#', 'i', 'f', ' ', 'x'], by decide⟩

/-- The segment of that tag. -/
def conditionSegment : Segment := .tag false conditionTag.contents

/-- A template that opens a number of conditions and closes none of them. -/
def conditionsRow (n : Nat) : String := String.ofList (List.replicate n conditionTag.source).flatten

lemma ofText_conditionsRow (n : Nat) :
    Token.ofText (conditionsRow n).toList = (List.replicate n conditionTag.tokens).flatten := by
  rw [conditionsRow, String.toList_ofList]
  induction n with
  | zero => rfl
  | succ n ih =>
    -- a tag ends with another brace than the one that the next tag starts with
    have hseam : ∀ c ∈ conditionTag.source.getLast?,
        ∀ d ∈ (List.replicate n conditionTag.source).flatten.head?, ¬ Token.Joins c d := by
      intro c hc d hd hjoins
      obtain rfl : '}' = c := Option.some.inj hc
      cases n with
      | zero => simp at hd
      | succ n =>
        obtain rfl : '{' = d := Option.some.inj hd
        simp [Token.Joins] at hjoins
    rw [List.replicate_succ, List.flatten_cons, Token.ofText_append hseam, ih, List.replicate_succ,
      List.flatten_cons]
    rfl

lemma segments_conditionsRow (n : Nat) :
    segments (conditionsRow n) = List.replicate n conditionSegment := by
  rw [segments, ofText_conditionsRow]
  induction n with
  | zero => rfl
  | succ n ih =>
    rw [List.replicate_succ, List.flatten_cons, Derivation.ofTokens_wording, ih]
    rfl

lemma unread_conditionsRow (n : Nat) (name : String) :
    (ofSource (conditionsRow n) name).unread = List.replicate n conditionSegment :=
  segments_conditionsRow n

/-- A run over open conditions stops at the first one that is too many. -/
lemma run_conditionsRow (counted n : Nat) (p : Position) (d : Draft)
    (hd : d.depth ≤ Draft.maxDepth - counted) (hn : Draft.maxDepth - counted < d.depth + n) :
    ∃ q, d.run counted p (List.replicate n conditionSegment) = ⟨.error .nestingTooDeep, q,
      List.replicate (d.depth + n - (Draft.maxDepth - counted + 1)) conditionSegment⟩ := by
  induction n generalizing p d with
  | zero => omega
  | succ n ih =>
    let next (span : Span) : Draft := ⟨[], .consequence d.blocks [] span.start "x" :: d.opened⟩
    have htake (span : Span) : d.take counted span conditionSegment =
        d.guarded counted (next span) := by
      simp [Draft.take, Draft.begin, conditionSegment, conditionTag.classified, next]
    have hnext (span : Span) : (next span).depth = d.depth + 1 := Draft.depth_mk_consequence ..
    rw [List.replicate_succ, Draft.run, htake, Draft.guarded]
    split_ifs with hroom
    · have hrest : d.depth + (n + 1) - (Draft.maxDepth - counted + 1) = n := by omega
      exact ⟨_, by rw [hrest]⟩
    · have hadd : d.depth + (n + 1) = d.depth + 1 + n := by omega
      have hle := hnext ⟨p, p.after conditionSegment.source⟩
      obtain ⟨q, hq⟩ := ih (p.after conditionSegment.source)
        (next ⟨p, p.after conditionSegment.source⟩) (by omega) (by omega)
      rw [hle, ← hadd] at hq
      exact ⟨q, hq⟩

lemma parse_conditionsRow (parser : Parser) {n : Nat}
    (hunread : parser.unread = List.replicate n conditionSegment)
    (hn : Draft.maxDepth - parser.counted < n) :
    tooDeep parser.parse.1 = true ∧ parser.parse.2.counted = parser.counted + 1 ∧
      parser.parse.2.unread =
        List.replicate (n - (Draft.maxDepth - parser.counted + 1)) conditionSegment := by
  have hzero : Draft.empty.depth + n = n := Nat.zero_add n
  obtain ⟨q, hrun⟩ := run_conditionsRow parser.counted n parser.position .empty (Nat.zero_le _)
    (by rwa [hzero])
  rw [← hunread, hzero] at hrun
  change parser.outcome = _ at hrun
  rcases parser.parse_cases with ⟨blocks, hresult, -⟩ | ⟨cause, hresult, hparse⟩
  · simp [hrun] at hresult
  · obtain rfl : .nestingTooDeep = cause := by simpa [hrun] using hresult
    rw [hparse, hrun]
    exact ⟨rfl, rfl, rfl⟩

/-- A segment opens no more than one block. -/
lemma sum_nest_le (sizes : List Nat) (segment : Segment) :
    (segment.nest sizes).sum ≤ sizes.sum + 1 := by
  cases segment with
  | tag continues contents =>
    rw [Segment.nest]
    cases Tag.classify contents with
    | directive keyword argument => exact (Nat.add_comm ..).le
    | close name =>
      cases sizes with
      | nil => exact Nat.zero_le _
      | cons size sizes =>
        simp only [Tag.nest, List.tail_cons, List.sum_cons]
        omega
    | otherwise junk => exact Nat.le_succ _
    | otherwiseIf condition =>
      cases sizes with
      | nil => exact Nat.zero_le _
      | cons size sizes =>
        simp only [Tag.nest, List.modifyHead_cons, List.sum_cons]
        omega
    | path path => exact Nat.le_succ _
  | _ => exact Nat.le_succ _

lemma openBlocks_le_length (segments : List Segment) : openBlocks segments ≤ segments.length := by
  have h : ∀ sizes : List Nat,
      (segments.foldl Segment.nest sizes).sum ≤ sizes.sum + segments.length := by
    induction segments with
    | nil => exact fun sizes => le_rfl
    | cons segment segments ih =>
      intro sizes
      have hstep := sum_nest_le sizes segment
      have hrest := ih (segment.nest sizes)
      rw [List.foldl_cons, List.length_cons]
      omega
  simpa [openBlocks] using h []

/-- Two calls on a row of 301 open conditions.  The first one reads 151 tags and leaves a block
counted.  The second one reads the other 150, which open no more blocks than a new parser allows. -/
lemma behindCalls_conditionsRow {first : Parser}
    (hunread : first.unread = List.replicate 301 conditionSegment) (hcounted : first.counted = 0) :
    tooDeep (first.behindCalls 0).parse.1 = true ∧
      (first.behindCalls 1).counted = (first.behindCalls 0).counted + 1 ∧
      tooDeep (first.behindCalls 1).parse.1 = true ∧
      ∀ read, (first.behindCalls 1).unread = read ++ (first.behindCalls 2).unread →
        ∀ front, front <+: read → openBlocks front ≤ Draft.maxDepth := by
  obtain ⟨hdeep₀, hcounted₁, hunread₁⟩ :=
    first.parse_conditionsRow hunread (by simp [hcounted, Draft.maxDepth])
  have hleft : 301 - (Draft.maxDepth - first.counted + 1) = 150 := by
    simp [hcounted, Draft.maxDepth]
  rw [hleft] at hunread₁
  obtain ⟨hdeep₁, -, -⟩ :=
    first.parse.2.parse_conditionsRow hunread₁ (by simp [hcounted₁, hcounted, Draft.maxDepth])
  refine ⟨hdeep₀, hcounted₁, hdeep₁, fun read hread front hfront => ?_⟩
  have hlength : read.length ≤ Draft.maxDepth := by
    have h := congrArg List.length (hunread₁.symm.trans hread)
    rw [List.length_replicate, List.length_append] at h
    exact Nat.le_of_add_right_le h.ge
  calc openBlocks front ≤ front.length := openBlocks_le_length front
    _ ≤ read.length := hfront.length_le
    _ ≤ Draft.maxDepth := hlength

/-- The second call on a row of open conditions fails since a block would be one too many, although
what it reads opens no more blocks than a new parser allows. -/
theorem allowance_conditionsRow :
    let parser := (ofSource (conditionsRow 301) "letter").behindCalls
    tooDeep (parser 0).parse.1 = true ∧ (parser 1).counted = (parser 0).counted + 1 ∧
      tooDeep (parser 1).parse.1 = true ∧
      ∀ read, (parser 1).unread = read ++ (parser 2).unread →
        ∀ front, front <+: read → openBlocks front ≤ Draft.maxDepth :=
  behindCalls_conditionsRow (unread_conditionsRow 301 "letter") rfl

end Parser
end Template
end FormLetter

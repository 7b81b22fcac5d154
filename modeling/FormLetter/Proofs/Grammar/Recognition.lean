/-
# What the construction accepts

If a tree can be built from a row of tokens, the tokens start with a derivation
(`recognised_of_succeeds`): a body reaches to the end of the row or to the next tag that closes or
goes on with a block, and an ending reaches over the tags of its own condition.  The proof follows
the row from the left; behind each derivation that it has found, `run_segments` tells what the draft
looks like there.
-/
import FormLetter.Proofs.Grammar.Construction

namespace FormLetter
namespace Template

/-- The tokens start with a tag that closes or goes on with a block. -/
def Continuing (ts : List Token) : Prop :=
  ∃ contents us, ts = Fence.plain.tag contents ++ us ∧ (Tag.classify contents).continues = true

/-- A body ends in front of these tokens: there are none, or they close or go on with a block. -/
def EndsBody (ts : List Token) : Prop := ts = [] ∨ Continuing ts

lemma EndsBody.endsText {ts : List Token} (h : EndsBody ts) : EndsText ts := by
  rcases h with rfl | ⟨contents, us, rfl, -⟩
  · exact endsText_nil
  · exact endsText_tag _ _ _

lemma endsBody_wording {tag : Tag} (w : Wording tag) (h : tag.continues = true) (ts : List Token) :
    EndsBody (w.tokens ++ ts) :=
  Or.inr ⟨w.contents, ts, rfl, by rw [w.classified, h]⟩

/-- An ending starts with a tag that closes or goes on with a block. -/
lemma endsBody_ending (t : Derivation .ending) (ts : List Token) : EndsBody (t.tokens ++ ts) := by
  cases t <;> simp only [Derivation.tokens, List.append_assoc] <;> exact endsBody_wording _ rfl _

namespace Draft

variable {counted : Nat} {p : Position} {d : Draft}

/-- A tree can be built from the segments. -/
def Succeeds (counted : Nat) (p : Position) (d : Draft) (segments : List Segment) : Prop :=
  ∃ blocks, (d.run counted p segments).result = .ok blocks

/-! ### What a single step can be -/

lemma Succeeds.step {segment : Segment} {segments : List Segment}
    (h : Succeeds counted p d (segment :: segments)) :
    ∃ next, d.take counted ⟨p, p.after segment.source⟩ segment = .ok next ∧
      Succeeds counted (p.after segment.source) next segments := by
  obtain ⟨blocks, hrun⟩ := h
  simp only [run] at hrun
  split at hrun
  · next next htake => exact ⟨next, htake, blocks, hrun⟩
  · simp at hrun

lemma guarded_eq_ok_iff {next next' : Draft} :
    d.guarded counted next = .ok next' ↔ counted + d.depth + 1 ≤ maxDepth ∧ next = next' := by
  rw [guarded]
  split
  · next h => simp; omega
  · next h => simp; omega

/-- What a tag can say that neither closes nor goes on with a block. -/
lemma begin_inv {span : Span} {contents : List Char} {next : Draft}
    (h : d.begin counted span contents = .ok next) :
    (∃ path, Tag.classify contents = .path path ∧ path ≠ "" ∧ next = d.push (.field path span)) ∨
      (∃ condition, Tag.classify contents = .directive "if" condition ∧ condition ≠ "" ∧
        counted + d.depth + 1 ≤ maxDepth ∧
        next = ⟨[], .consequence d.blocks [] span.start condition :: d.opened⟩) ∨
      ∃ source, Tag.classify contents = .directive "each" source ∧ source ≠ "" ∧
        counted + d.depth + 1 ≤ maxDepth ∧
        next = ⟨[], .body d.blocks span.start source :: d.opened⟩ := by
  unfold begin at h
  split at h
  · next keyword argument hclass =>
    split_ifs at h with hif harg heach harg
    · subst hif
      obtain ⟨hroom, rfl⟩ := guarded_eq_ok_iff.1 h
      exact Or.inr (Or.inl ⟨argument, hclass, harg, hroom, rfl⟩)
    · subst heach
      obtain ⟨hroom, rfl⟩ := guarded_eq_ok_iff.1 h
      exact Or.inr (Or.inr ⟨argument, hclass, harg, hroom, rfl⟩)
  · next path hclass =>
    split_ifs at h with hne
    exact Or.inl ⟨path, hclass, hne, (Except.ok.inj h).symm⟩
  all_goals simp at h

/-- What the tag can say that comes behind the consequence of a condition. -/
lemma proceed_consequence_inv {span : Span} {contents : List Char} {next : Draft}
    (hd : d.Awaits .ending) (h : d.proceed counted span contents = .ok next) :
    Tag.classify contents = .close "if" ∨ Tag.classify contents = .otherwise "" ∨
      ∃ condition, Tag.classify contents = .otherwiseIf condition ∧ condition ≠ "" ∧
        counted + d.depth + 1 ≤ maxDepth := by
  obtain ⟨blocks, opened⟩ := d
  obtain ⟨before, earlier, start, first, opened, rfl⟩ := hd
  simp only [proceed] at h
  split at h
  · next found hclass =>
    split_ifs at h with hif
    exact Or.inl (hif ▸ hclass)
  · next junk hclass =>
    split_ifs at h with hjunk
    exact Or.inr (Or.inl (hjunk ▸ hclass))
  · next condition hclass =>
    split_ifs at h with hne
    exact Or.inr (Or.inr ⟨condition, hclass, hne, (guarded_eq_ok_iff.1 h).1⟩)
  all_goals simp at h

/-- The tag that closes a block gives the name of the block. -/
lemma close_eq_ok {contents : List Char} {name : String} {before : List Block}
    {opened : List OpenBlock} {b : Block} {next : Draft}
    (h : close contents name before opened b = .ok next) :
    Tag.classify contents = .close name := by
  unfold close at h
  split at h
  · next found hclass =>
    split_ifs at h with hname
    exact hname ▸ hclass
  · simp at h

/-! ### Behind a derivation -/

lemma Succeeds.behind {n : Part} (t : Derivation n) (hmax : t.Maximal) {ts : List Token}
    (hts : n = .body → EndsText ts) (hd : d.Awaits n)
    (hroom : counted + d.depth + t.depth ≤ maxDepth)
    (h : Succeeds counted p d (Segment.ofTokens (t.tokens ++ ts))) :
    Succeeds counted (p.after t.source) (d.absorb n (t.blocks p) (p.after t.source))
      (Segment.ofTokens ts) := by
  rw [Derivation.ofTokens_tokens t hmax hts] at h
  obtain ⟨blocks, hrun⟩ := h
  exact ⟨blocks, by rw [← run_segments t p _ hd hroom]; exact hrun⟩

/-- A template must not end within a block. -/
lemma Succeeds.continuing {ts : List Token} (h : Succeeds counted p d (Segment.ofTokens ts))
    (hopened : d.opened ≠ []) (hts : EndsBody ts) : Continuing ts := by
  rcases hts with rfl | hts
  · exfalso
    obtain ⟨blocks, hrun⟩ := h
    obtain ⟨b, opened⟩ := d
    cases opened with
    | nil => exact hopened rfl
    | cons o opened => simp [Segment.ofTokens, run, finish] at hrun
  · exact hts

/-- Outside all blocks no tag closes or goes on with one. -/
lemma Succeeds.not_continuing {ts : List Token} (h : Succeeds counted p d (Segment.ofTokens ts))
    (hopened : d.opened = []) : ¬ Continuing ts := by
  rintro ⟨contents, us, rfl, hclass⟩
  rw [Segment.ofTokens_tag, hclass] at h
  obtain ⟨next, htake, -⟩ := h.step
  simp [take, proceed, hopened] at htake

/-! ### Derivations in front of a row -/

/-- The tokens start with a derivation that the draft has room for, and a body reaches as far as it
can. -/
def Recognised (counted : Nat) (n : Part) (d : Draft) (ts : List Token) : Prop :=
  ∃ (t : Derivation n) (rest : List Token), ts = t.tokens ++ rest ∧ t.Maximal ∧
    counted + d.depth + t.depth ≤ maxDepth ∧ (n = .body → EndsBody rest)

/-- In rows of less than `k` tokens that a tree can be built from, the derivation has been found. -/
def RecognisedBelow (counted k : Nat) : Prop :=
  ∀ (n : Part) (ts : List Token) (p : Position) (d : Draft), ts.length < k → d.Awaits n →
    counted + d.depth ≤ maxDepth → (n = .ending → Continuing ts) →
    Succeeds counted p d (Segment.ofTokens ts) → Recognised counted n d ts

lemma RecognisedBelow.body {k : Nat} (ih : RecognisedBelow counted k) {ts : List Token}
    (hlen : ts.length < k) (h : Succeeds counted p d (Segment.ofTokens ts))
    (hroom : counted + d.depth ≤ maxDepth) :
    ∃ (t : Derivation .body) (rest : List Token), ts = t.tokens ++ rest ∧ t.Maximal ∧
      counted + d.depth + t.depth ≤ maxDepth ∧ EndsBody rest ∧
      Succeeds counted (p.after t.source) ⟨(t.blocks p).reverse ++ d.blocks, d.opened⟩
        (Segment.ofTokens rest) := by
  obtain ⟨t, rest, rfl, hmax, hdepth, hrest⟩ := ih .body ts p d hlen trivial hroom (by simp) h
  exact ⟨t, rest, rfl, hmax, hdepth, hrest rfl,
    h.behind t hmax (fun _ => (hrest rfl).endsText) trivial hdepth⟩

lemma RecognisedBelow.ending {k : Nat} (ih : RecognisedBelow counted k) {ts : List Token}
    {blocks before : List Block} {earlier : List Arm} {start : Position} {condition : String}
    {opened : List OpenBlock} (hlen : ts.length < k) (hts : Continuing ts)
    (h : Succeeds counted p ⟨blocks, .consequence before earlier start condition :: opened⟩
      (Segment.ofTokens ts))
    (hroom : counted + OpenBlock.depth opened + earlier.length + 1 ≤ maxDepth) :
    ∃ (t : Derivation .ending) (rest : List Token), ts = t.tokens ++ rest ∧ t.Maximal ∧
      counted + OpenBlock.depth opened + earlier.length + 1 + t.depth ≤ maxDepth ∧
      ∃ finish b, Succeeds counted finish ⟨b :: before, opened⟩ (Segment.ofTokens rest) := by
  have hawaits : Awaits .ending ⟨blocks, .consequence before earlier start condition :: opened⟩ :=
    ⟨_, _, _, _, _, rfl⟩
  obtain ⟨t, rest, rfl, hmax, hdepth, -⟩ :=
    ih .ending ts p _ hlen hawaits (by simp; omega) (fun _ => hts) h
  refine ⟨t, rest, rfl, hmax, ?_, _, _, h.behind t hmax (by simp) hawaits hdepth⟩
  simp only [depth_mk_consequence] at hdepth
  omega

/-! ### The kinds of items and of endings -/

variable {contents : List Char} {us : List Token}

lemma length_lt_tag (fence : Fence) (contents : List Char) (us : List Token) :
    us.length < (fence.tag contents ++ us).length := by
  simp only [Fence.tag, List.cons_append, List.append_assoc, List.length_cons, List.length_append]
  omega

lemma recognised_field {path : String}
    (ih : RecognisedBelow counted (Fence.plain.tag contents ++ us).length)
    (hroom : counted + d.depth ≤ maxDepth) (hclass : Tag.classify contents = .path path)
    (hne : path ≠ "") (span : Span)
    (h : Succeeds counted p (d.push (.field path span)) (Segment.ofTokens us)) :
    Recognised counted .body d (Fence.plain.tag contents ++ us) := by
  obtain ⟨t, rest, rfl, hmax, hdepth, hrest, -⟩ := ih.body (length_lt_tag _ _ _) h hroom
  exact ⟨.field path hne ⟨contents, hclass⟩ t, rest, by simp [Derivation.tokens, Wording.tokens],
    hmax, hdepth, fun _ => hrest⟩

lemma recognised_conditional {condition : String} {start : Position}
    (ih : RecognisedBelow counted (Fence.plain.tag contents ++ us).length)
    (hroom : counted + d.depth + 1 ≤ maxDepth)
    (hclass : Tag.classify contents = .directive "if" condition) (hne : condition ≠ "")
    (h : Succeeds counted p ⟨[], .consequence d.blocks [] start condition :: d.opened⟩
      (Segment.ofTokens us)) :
    Recognised counted .body d (Fence.plain.tag contents ++ us) := by
  have hdepth : d.depth = OpenBlock.depth d.opened := rfl
  have hlen := length_lt_tag .plain contents us
  obtain ⟨t₁, rest₁, rfl, hmax₁, hdepth₁, hend₁, h₁⟩ := ih.body hlen h (by simp; omega)
  -- behind the consequence there is the ending, since the condition is still open
  have hcont := h₁.continuing (by simp) hend₁
  obtain ⟨t₂, rest₂, rfl, hmax₂, hdepth₂, finish, b, h₂⟩ :=
    ih.ending (by simp at hlen ⊢; omega) hcont h₁ (by simp; omega)
  obtain ⟨t₃, rest₃, rfl, hmax₃, hdepth₃, hend₃, -⟩ :=
    ih.body (by simp at hlen ⊢; omega) h₂ (by simp [depth] at *; omega)
  refine ⟨.conditional condition hne ⟨contents, hclass⟩ t₁ t₂ t₃, rest₃,
    by simp [Derivation.tokens, Wording.tokens], ⟨hmax₁, hmax₂, hmax₃⟩, ?_, fun _ => hend₃⟩
  simp only [depth_mk_consequence, List.length_nil] at hdepth₁ hdepth₂
  simp only [depth, Derivation.depth] at hdepth₃ ⊢
  omega

lemma recognised_loop {source : String} {start : Position}
    (ih : RecognisedBelow counted (Fence.plain.tag contents ++ us).length)
    (hroom : counted + d.depth + 1 ≤ maxDepth)
    (hclass : Tag.classify contents = .directive "each" source) (hne : source ≠ "")
    (h : Succeeds counted p ⟨[], .body d.blocks start source :: d.opened⟩ (Segment.ofTokens us)) :
    Recognised counted .body d (Fence.plain.tag contents ++ us) := by
  have hdepth : d.depth = OpenBlock.depth d.opened := rfl
  have hlen := length_lt_tag .plain contents us
  obtain ⟨t₁, rest₁, rfl, hmax₁, hdepth₁, hend₁, h₁⟩ := ih.body hlen h (by simp; omega)
  -- behind the body there is a tag, which has to close the loop
  obtain ⟨closing, us₂, rfl, hcont⟩ := h₁.continuing (by simp) hend₁
  rw [Segment.ofTokens_tag, hcont] at h₁
  obtain ⟨next, htake, h₂⟩ := h₁.step
  have hclose : Tag.classify closing = .close "each" := close_eq_ok htake
  rw [take_close_body _ _ _ _ _ ⟨closing, hclose⟩] at htake
  obtain rfl := Except.ok.inj htake
  obtain ⟨t₃, rest₃, rfl, hmax₃, hdepth₃, hend₃, -⟩ :=
    ih.body (by simp [Fence.tag] at hlen ⊢; omega) h₂ (by simp [depth] at *; omega)
  refine ⟨.loop source hne ⟨contents, hclass⟩ t₁ ⟨closing, hclose⟩ t₃, rest₃,
    by simp [Derivation.tokens, Wording.tokens], ⟨hmax₁, hmax₃⟩, ?_, fun _ => hend₃⟩
  simp only [depth_mk_body] at hdepth₁
  simp only [depth, Derivation.depth] at hdepth₃ ⊢
  omega

/-- A body that starts with a tag. -/
lemma recognised_tag (ih : RecognisedBelow counted (Fence.plain.tag contents ++ us).length)
    (hroom : counted + d.depth ≤ maxDepth)
    (h : Succeeds counted p d (Segment.ofTokens (Fence.plain.tag contents ++ us))) :
    Recognised counted .body d (Fence.plain.tag contents ++ us) := by
  rw [Segment.ofTokens_tag] at h
  cases hclass : (Tag.classify contents).continues with
  | true =>
    exact ⟨.nil, _, rfl, trivial, hroom, fun _ => Or.inr ⟨contents, us, rfl, hclass⟩⟩
  | false =>
    rw [hclass] at h
    obtain ⟨next, htake, h⟩ := h.step
    rcases begin_inv htake with ⟨path, hpath, hne, rfl⟩ | ⟨condition, hif, hne, hroom', rfl⟩ |
      ⟨source, heach, hne, hroom', rfl⟩
    · exact recognised_field ih hroom hpath hne _ h
    · exact recognised_conditional ih hroom' hif hne h
    · exact recognised_loop ih hroom' heach hne h

lemma recognised_markdown (ih : RecognisedBelow counted (Fence.markdown.tag contents ++ us).length)
    (hroom : counted + d.depth ≤ maxDepth)
    (h : Succeeds counted p d (Segment.ofTokens (Fence.markdown.tag contents ++ us))) :
    Recognised counted .body d (Fence.markdown.tag contents ++ us) := by
  rw [Segment.ofTokens_markdown] at h
  obtain ⟨next, htake, h⟩ := h.step
  by_cases hne : Text.trim contents = []
  · simp [take, hne] at htake
  · rw [take_markdown hne] at htake
    obtain rfl := Except.ok.inj htake
    obtain ⟨t, rest, rfl, hmax, hdepth, hrest, -⟩ := ih.body (length_lt_tag _ _ _) h hroom
    exact ⟨.markdown contents hne t, rest, by simp [Derivation.tokens], hmax, hdepth,
      fun _ => hrest⟩

lemma recognised_run {run : List Token} (hne : run ≠ []) (hrun : ∀ t ∈ run, t.isText = true)
    (hus : EndsText us) (ih : RecognisedBelow counted (run ++ us).length)
    (hroom : counted + d.depth ≤ maxDepth)
    (h : Succeeds counted p d (Segment.ofTokens (run ++ us))) :
    Recognised counted .body d (run ++ us) := by
  rw [Segment.ofTokens_run hne hrun hus] at h
  obtain ⟨next, htake, h⟩ := h.step
  obtain rfl := Except.ok.inj htake
  have hlen : us.length < (run ++ us).length := by
    have hpos := List.length_pos_iff.2 hne
    simp only [List.length_append]
    omega
  obtain ⟨t, rest, rfl, hmax, hdepth, hrest, -⟩ := ih.body hlen h hroom
  exact ⟨.text run hne hrun t, rest, by simp [Derivation.tokens], ⟨hus.left, hmax⟩, hdepth,
    fun _ => hrest⟩

/-- An ending, of which the first tag comes behind the consequence of a condition. -/
lemma recognised_ending (ih : RecognisedBelow counted (Fence.plain.tag contents ++ us).length)
    (hd : d.Awaits .ending) (hroom : counted + d.depth ≤ maxDepth)
    (hcont : (Tag.classify contents).continues = true)
    (h : Succeeds counted p d (Segment.ofTokens (Fence.plain.tag contents ++ us))) :
    Recognised counted .ending d (Fence.plain.tag contents ++ us) := by
  have hlen := length_lt_tag .plain contents us
  rw [Segment.ofTokens_tag, hcont] at h
  obtain ⟨next, htake, h⟩ := h.step
  have hproceed := proceed_consequence_inv hd htake
  obtain ⟨blocks, opened⟩ := d
  obtain ⟨before, earlier, start, first, opened, rfl⟩ := hd
  rw [depth_mk_consequence] at hroom hproceed
  rcases hproceed with hclose | helse | ⟨condition, hif, hne, hroom'⟩
  · exact ⟨.close ⟨contents, hclose⟩, us, rfl, trivial, by simpa [Derivation.depth] using hroom,
      by simp⟩
  · rw [take_otherwise _ _ _ _ _ _ _ ⟨contents, helse⟩] at htake
    obtain rfl := Except.ok.inj htake
    obtain ⟨t, rest, rfl, hmax, hdepth, hend, h⟩ := ih.body hlen h (by simp; omega)
    -- behind the alternative there is a tag, which has to close the condition
    obtain ⟨closing, rest, rfl, hclosing⟩ := h.continuing (by simp) hend
    rw [Segment.ofTokens_tag, hclosing] at h
    obtain ⟨last, hlast, -⟩ := h.step
    have hclose : Tag.classify closing = .close "if" := close_eq_ok hlast
    exact ⟨.otherwise ⟨contents, helse⟩ t ⟨closing, hclose⟩, rest,
      by simp [Derivation.tokens, Wording.tokens], hmax,
      by simpa [Derivation.depth] using hdepth, by simp⟩
  · rw [take_otherwiseIf _ _ _ _ _ _ _ hne ⟨contents, hif⟩ (by omega)] at htake
    obtain rfl := Except.ok.inj htake
    obtain ⟨t₁, rest₁, rfl, hmax₁, hdepth₁, hend₁, h₁⟩ := ih.body hlen h (by simp; omega)
    obtain ⟨t₂, rest₂, rfl, hmax₂, hdepth₂, -⟩ :=
      ih.ending (by simp at hlen ⊢; omega) (h₁.continuing (by simp) hend₁) h₁ (by simp; omega)
    refine ⟨.otherwiseIf condition hne ⟨contents, hif⟩ t₁ t₂, rest₂,
      by simp [Derivation.tokens, Wording.tokens], ⟨hmax₁, hmax₂⟩, ?_, by simp⟩
    simp only [depth_mk_consequence, List.length_cons, Derivation.depth] at hdepth₁ hdepth₂ ⊢
    omega

/-- **Recognition.**  If a tree can be built from a row of tokens, the row starts with a derivation
of the part of speech that the draft awaits, and there is room for its depth. -/
theorem recognised_of_succeeds (n : Part) (ts : List Token) (p : Position) (d : Draft)
    (hd : d.Awaits n) (hroom : counted + d.depth ≤ maxDepth) (hts : n = .ending → Continuing ts)
    (h : Succeeds counted p d (Segment.ofTokens ts)) : Recognised counted n d ts := by
  induction hlen : ts.length using Nat.strong_induction_on generalizing n ts p d with
  | _ k ih =>
    have hbelow : RecognisedBelow counted ts.length := by
      intro n us q e hus he hroom hcont h
      exact ih us.length (hlen ▸ hus) n us q e he hroom hcont h rfl
    clear ih
    cases n with
    | body =>
      cases Segment.exists_front ts with
      | nil => exact ⟨.nil, [], rfl, trivial, hroom, fun _ => Or.inl rfl⟩
      | run hne hrun hus => exact recognised_run hne hrun hus hbelow hroom h
      | tag fence contents us =>
        cases fence with
        | plain => exact recognised_tag hbelow hroom h
        | markdown => exact recognised_markdown hbelow hroom h
      | broken fence contents found rest hbroken =>
        rw [hbroken] at h
        obtain ⟨next, htake, -⟩ := h.step
        cases found <;> simp [take] at htake
    | ending =>
      obtain ⟨contents, us, rfl, hcont⟩ := hts rfl
      exact recognised_ending hbelow hd hroom hcont h

end Draft
end Template
end FormLetter

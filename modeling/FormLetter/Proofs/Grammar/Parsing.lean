/-
# Parsing by the grammar

A template has a tree just in case its tokens have a derivation that keeps no more than 150 blocks
open at once; the tree is then the blocks of the derivation, with their positions
(`parse_eq_ok_iff_derives`).  A row of tokens has one derivation at most (`eq_of_tokens`).
-/
import FormLetter.Template.Parser
import FormLetter.Proofs.Grammar.Recognition

namespace FormLetter
namespace Template
namespace Derivation

/-! ### One derivation at most -/

lemma tag_append_inj {fence : Fence} {contents contents' : List Char} {ts us : List Token}
    (h : fence.tag contents ++ ts = fence.tag contents' ++ us) :
    contents = contents' ∧ ts = us := by
  induction contents generalizing contents' with
  | nil =>
    cases contents' with
    | nil => simpa [Fence.tag] using h
    | cons c contents' => simp [Fence.tag] at h
  | cons c contents ih =>
    cases contents' with
    | nil => simp [Fence.tag] at h
    | cons c' contents' =>
      simp only [Fence.tag, List.map_cons, List.cons_append, List.cons.injEq,
        Token.character.injEq, true_and] at h
      obtain ⟨rfl, h⟩ := h
      have htail : fence.tag contents ++ ts = fence.tag contents' ++ us := by
        simpa [Fence.tag] using h
      obtain ⟨rfl, rfl⟩ := ih htail
      exact ⟨rfl, rfl⟩

lemma wording_append_inj {tag : Tag} {w w' : Wording tag} {ts us : List Token}
    (h : w.tokens ++ ts = w'.tokens ++ us) : w = w' ∧ ts = us := by
  obtain ⟨contents, _⟩ := w
  obtain ⟨contents', _⟩ := w'
  obtain ⟨rfl, rfl⟩ := tag_append_inj h
  exact ⟨rfl, rfl⟩

lemma run_append_inj {run run' ts us : List Token} (hrun : ∀ t ∈ run, t.isText = true)
    (hrun' : ∀ t ∈ run', t.isText = true) (hts : EndsText ts) (hus : EndsText us)
    (h : run ++ ts = run' ++ us) : run = run' ∧ ts = us := by
  -- the run is what can be taken from the row as long as it is text
  have htake : ∀ {run ts : List Token}, (∀ t ∈ run, t.isText = true) → EndsText ts →
      (run ++ ts).takeWhile Token.isText = run := by
    intro run ts hrun hts
    rw [List.takeWhile_append_of_pos hrun]
    cases ts with
    | nil => simp
    | cons t ts => simp [hts t (by simp)]
  have hrun : run = run' := by rw [← htake hrun hts, h, htake hrun' hus]
  subst hrun
  exact ⟨rfl, List.append_cancel_left h⟩

/-- What a derivation starts with. -/
inductive Lead where
  | nothing
  | text
  | markdown
  | tag (tag : Tag)

/-- What the derivation starts with. -/
def lead : {n : Part} → Derivation n → Lead
  | _, .nil => .nothing
  | _, .text _ _ _ _ => .text
  | _, .field path _ _ _ => .tag (.path path)
  | _, .markdown _ _ _ => .markdown
  | _, .conditional condition _ _ _ _ _ => .tag (.directive "if" condition)
  | _, .loop source _ _ _ _ _ => .tag (.directive "each" source)
  | _, .close _ => .tag (.close "if")
  | _, .otherwise _ _ _ => .tag (.otherwise "")
  | _, .otherwiseIf condition _ _ _ _ => .tag (.otherwiseIf condition)

/-- What a derivation of the given part starts with, told from the segments. -/
def leadOf : Part → List Segment → Lead
  | _, .text _ :: _ => .text
  | _, .markdown _ :: _ => .markdown
  | _, .tag false contents :: _ => .tag (Tag.classify contents)
  | .ending, .tag true contents :: _ => .tag (Tag.classify contents)
  | _, _ => .nothing

lemma leadOf_tokens {n : Part} (d : Derivation n) (hmax : d.Maximal) {ts : List Token}
    (hts : n = .body → EndsBody ts) :
    leadOf n (Segment.ofTokens (d.tokens ++ ts)) = d.lead := by
  rw [ofTokens_tokens d hmax fun h => (hts h).endsText]
  cases d with
  | nil =>
    rcases hts rfl with rfl | ⟨contents, us, rfl, hclass⟩
    · rfl
    · rw [Segment.ofTokens_tag, hclass]
      rfl
  | text run hne hrun rest => rfl
  | markdown contents hne rest => rfl
  | field path hne tag rest => exact congrArg Lead.tag tag.classified
  | conditional condition hne tag consequence ending rest => exact congrArg Lead.tag tag.classified
  | loop source hne tag body closing rest => exact congrArg Lead.tag tag.classified
  | close tag => exact congrArg Lead.tag tag.classified
  | otherwise tag alternative closing => exact congrArg Lead.tag tag.classified
  | otherwiseIf condition hne tag consequence ending => exact congrArg Lead.tag tag.classified

lemma lead_eq {n : Part} {d e : Derivation n} (hd : d.Maximal) (he : e.Maximal)
    {ts us : List Token} (hts : n = .body → EndsBody ts) (hus : n = .body → EndsBody us)
    (h : d.tokens ++ ts = e.tokens ++ us) : d.lead = e.lead := by
  rw [← leadOf_tokens d hd hts, ← leadOf_tokens e he hus, h]

/-- A row of tokens starts with one derivation at most: neither what a derivation is made of nor
where it ends is left open. -/
theorem append_inj {n : Part} (d e : Derivation n) (hd : d.Maximal) (he : e.Maximal)
    {ts us : List Token} (hts : n = .body → EndsBody ts) (hus : n = .body → EndsBody us)
    (h : d.tokens ++ ts = e.tokens ++ us) : d = e ∧ ts = us := by
  -- in each case both start with the same kind of thing, so that only equal constructors remain
  induction d generalizing ts us with
  | nil =>
    have hlead := lead_eq hd he hts hus h
    cases e with
    | nil => exact ⟨rfl, h⟩
    | _ => simp [lead] at hlead
  | text run hne hrun rest ih =>
    have hlead := lead_eq hd he hts hus h
    cases e with
    | text run' hne' hrun' rest' =>
      simp only [tokens, List.append_assoc] at h
      obtain ⟨rfl, h₁⟩ := run_append_inj hrun hrun' (hd.1.append (hts rfl).endsText)
        (he.1.append (hus rfl).endsText) h
      obtain ⟨rfl, rfl⟩ := ih rest' hd.2 he.2 hts hus h₁
      exact ⟨rfl, rfl⟩
    | _ => simp [lead] at hlead
  | field path hne tag rest ih =>
    have hlead := lead_eq hd he hts hus h
    cases e with
    | field path' hne' tag' rest' =>
      obtain rfl : path = path' := by simpa [lead] using hlead
      simp only [tokens, List.append_assoc] at h
      obtain ⟨rfl, h₁⟩ := wording_append_inj h
      obtain ⟨rfl, rfl⟩ := ih rest' hd he hts hus h₁
      exact ⟨rfl, rfl⟩
    | _ => simp [lead] at hlead
  | markdown contents hne rest ih =>
    have hlead := lead_eq hd he hts hus h
    cases e with
    | markdown contents' hne' rest' =>
      simp only [tokens, List.append_assoc] at h
      obtain ⟨rfl, h₁⟩ := tag_append_inj h
      obtain ⟨rfl, rfl⟩ := ih rest' hd he hts hus h₁
      exact ⟨rfl, rfl⟩
    | _ => simp [lead] at hlead
  | conditional condition hne tag consequence ending rest ih₁ ih₂ ih₃ =>
    have hlead := lead_eq hd he hts hus h
    cases e with
    | conditional condition' hne' tag' consequence' ending' rest' =>
      obtain rfl : condition = condition' := by simpa [lead] using hlead
      simp only [tokens, List.append_assoc] at h
      obtain ⟨rfl, h₁⟩ := wording_append_inj h
      obtain ⟨rfl, h₂⟩ := ih₁ consequence' hd.1 he.1 (fun _ => endsBody_ending _ _)
        (fun _ => endsBody_ending _ _) h₁
      obtain ⟨rfl, h₃⟩ := ih₂ ending' hd.2.1 he.2.1 (by simp) (by simp) h₂
      obtain ⟨rfl, rfl⟩ := ih₃ rest' hd.2.2 he.2.2 hts hus h₃
      exact ⟨rfl, rfl⟩
    | _ => simp [lead] at hlead
  | loop source hne tag body closing rest ih₁ ih₂ =>
    have hlead := lead_eq hd he hts hus h
    cases e with
    | loop source' hne' tag' body' closing' rest' =>
      obtain rfl : source = source' := by simpa [lead] using hlead
      simp only [tokens, List.append_assoc] at h
      obtain ⟨rfl, h₁⟩ := wording_append_inj h
      obtain ⟨rfl, h₂⟩ := ih₁ body' hd.1 he.1 (fun _ => endsBody_wording _ rfl _)
        (fun _ => endsBody_wording _ rfl _) h₁
      obtain ⟨rfl, h₃⟩ := wording_append_inj h₂
      obtain ⟨rfl, rfl⟩ := ih₂ rest' hd.2 he.2 hts hus h₃
      exact ⟨rfl, rfl⟩
    | _ => simp [lead] at hlead
  | close tag =>
    have hlead := lead_eq hd he hts hus h
    cases e with
    | close tag' =>
      obtain ⟨rfl, rfl⟩ := wording_append_inj h
      exact ⟨rfl, rfl⟩
    | _ => simp [lead] at hlead
  | otherwise tag alternative closing ih =>
    have hlead := lead_eq hd he hts hus h
    cases e with
    | otherwise tag' alternative' closing' =>
      simp only [tokens, List.append_assoc] at h
      obtain ⟨rfl, h₁⟩ := wording_append_inj h
      obtain ⟨rfl, h₂⟩ := ih alternative' hd he (fun _ => endsBody_wording _ rfl _)
        (fun _ => endsBody_wording _ rfl _) h₁
      obtain ⟨rfl, rfl⟩ := wording_append_inj h₂
      exact ⟨rfl, rfl⟩
    | _ => simp [lead] at hlead
  | otherwiseIf condition hne tag consequence ending ih₁ ih₂ =>
    have hlead := lead_eq hd he hts hus h
    cases e with
    | otherwiseIf condition' hne' tag' consequence' ending' =>
      obtain rfl : condition = condition' := by simpa [lead] using hlead
      simp only [tokens, List.append_assoc] at h
      obtain ⟨rfl, h₁⟩ := wording_append_inj h
      obtain ⟨rfl, h₂⟩ := ih₁ consequence' hd.1 he.1 (fun _ => endsBody_ending _ _)
        (fun _ => endsBody_ending _ _) h₁
      obtain ⟨rfl, rfl⟩ := ih₂ ending' hd.2 he.2 (by simp) (by simp) h₂
      exact ⟨rfl, rfl⟩
    | _ => simp [lead] at hlead

/-- A row of tokens has one derivation at most. -/
theorem eq_of_tokens {d e : Derivation .body} (hd : d.Maximal) (he : e.Maximal)
    (h : d.tokens = e.tokens) : d = e := by
  have happend : d.tokens ++ [] = e.tokens ++ [] := by rw [h]
  exact (append_inj d e hd he (fun _ => Or.inl rfl) (fun _ => Or.inl rfl) happend).1

/-! ### Templates -/

/-- The derivation is one of the template, with runs of text that are as long as they can be. -/
structure Derives (d : Derivation .body) (source : String) : Prop where
  maximal : d.Maximal
  tokens_eq : d.tokens = Token.ofText source.toList

lemma Derives.source_eq {d : Derivation .body} {source : String} (h : d.Derives source) :
    d.source = source.toList := by
  rw [Derivation.source, h.tokens_eq, Token.ofText_text]

/-- Tokens that keep apart are those of their own text. -/
lemma derives_of_isChain {d : Derivation .body} (hmax : d.Maximal)
    (hchain : d.tokens.IsChain Token.Apart) : d.Derives (String.ofList d.source) := by
  refine ⟨hmax, ?_⟩
  rw [String.toList_ofList, Derivation.source, Token.ofText_flatMap_text hchain]

lemma Derives.isChain {d : Derivation .body} {source : String} (h : d.Derives source) :
    d.tokens.IsChain Token.Apart := h.tokens_eq ▸ Token.isChain_ofText _

end Derivation

/-! ### Reading a template -/

lemma parse_eq_ok_iff_run {source name : String} {blocks : List Block} :
    parse source name = .ok blocks ↔
      (Draft.empty.run 0 .start (segments source)).result = .ok blocks := by
  simp only [parse, Parser.parse, Parser.ofSource]
  cases (Draft.empty.run 0 .start (segments source)).result <;> simp

/-- From a derivation that nests no deeper than allowed its blocks are read. -/
lemma run_derivation {d : Derivation .body} {source : String} (h : d.Derives source)
    (hdepth : d.depth ≤ Draft.maxDepth) :
    (Draft.empty.run 0 .start (segments source)).result = .ok (d.blocks .start) := by
  have hsegments : segments source = d.segments ++ [] := by
    have htokens := Derivation.ofTokens_tokens d h.maximal fun _ => endsText_nil
    rw [segments, ← h.tokens_eq]
    simpa [Segment.ofTokens] using htokens
  have hroom : 0 + Draft.empty.depth + d.depth ≤ Draft.maxDepth := by
    simpa [Draft.empty, Draft.depth, OpenBlock.depth] using hdepth
  rw [hsegments, Draft.run_segments d .start [] trivial hroom]
  simp [Draft.run, Draft.finish, Draft.empty]

/-- What is read from a template is the tree of a derivation that nests no deeper than allowed. -/
lemma parse_eq_ok_iff {source name : String} {blocks : List Block} :
    parse source name = .ok blocks ↔
      ∃ d : Derivation .body,
        d.Derives source ∧ d.depth ≤ Draft.maxDepth ∧ d.blocks .start = blocks := by
  rw [parse_eq_ok_iff_run]
  constructor
  · intro h
    have hsucceeds : Draft.empty.Succeeds 0 .start (segments source) := ⟨blocks, h⟩
    obtain ⟨d, rest, htokens, hmax, hroom, hrest⟩ :=
      Draft.recognised_of_succeeds .body _ .start .empty trivial (by decide) (by simp) hsucceeds
    have hdepth : d.depth ≤ Draft.maxDepth := by
      simpa [Draft.empty, Draft.depth, OpenBlock.depth] using hroom
    -- nothing is left over: outside all blocks no tag ends a body
    have hnil : rest = [] := by
      refine (hrest rfl).resolve_right fun hcont => ?_
      rw [segments, htokens] at hsucceeds
      exact (hsucceeds.behind d hmax (fun _ => (hrest rfl).endsText) trivial hroom).not_continuing
        rfl hcont
    have hd : d.Derives source := ⟨hmax, by rw [htokens, hnil, List.append_nil]⟩
    refine ⟨d, hd, hdepth, ?_⟩
    rw [run_derivation hd hdepth] at h
    exact Except.ok.inj h
  · rintro ⟨d, hd, hdepth, rfl⟩
    exact run_derivation hd hdepth

/-- **The grammar.**  Blocks are read from a template just in case they are the blocks of a
derivation of its tokens that keeps at most 150 blocks open at once, and no template has two
derivations. -/
theorem parse_eq_ok_iff_derives (source name : String) :
    (∀ blocks, parse source name = .ok blocks ↔
      ∃ d : Derivation .body, d.Derives source ∧ d.depth ≤ 150 ∧ d.blocks .start = blocks) ∧
    ∀ d e : Derivation .body, d.Derives source → e.Derives source → d = e :=
  ⟨fun _ => parse_eq_ok_iff, fun _ _ hd he =>
    Derivation.eq_of_tokens hd.maximal he.maximal (hd.tokens_eq.trans he.tokens_eq.symm)⟩

end Template
end FormLetter

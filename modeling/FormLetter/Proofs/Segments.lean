/-
# How rows of tokens begin

A row of tokens that is not empty begins with a run of text, a complete plain tag, a complete
markdown tag, or a tag that is broken off (`exists_front`).  For each of these beginnings there is
an equation for the first segment; what follows is cut up on its own.  The tags of the equations are
complete ones, and whether they go on with a block is told by their classification.
-/
import FormLetter.Template.Segment
import FormLetter.Proofs.Tags
import FormLetter.Proofs.Tokens

namespace FormLetter
namespace Template

/-- Does the token belong to a run of text if it stands outside a tag? -/
def Token.isText : Token → Bool
  | character _ => true
  | closing _ => true
  | opening _ => false

/-- The tokens of a tag with the given contents. -/
def Fence.tag (fence : Fence) (contents : List Char) : List Token :=
  Token.opening fence :: (contents.map Token.character ++ [Token.closing fence])

/-- What stands in the template for a tag with the given contents. -/
def Fence.enclose (fence : Fence) (contents : List Char) : List Char :=
  fence.opening ++ contents ++ fence.closing

@[simp] lemma Fence.flatMap_text_tag (fence : Fence) (contents : List Char) :
    (fence.tag contents).flatMap Token.text = fence.enclose contents := by
  simp [tag, enclose, List.flatMap_map, Token.text]

/-- A run of text ends in front of these tokens: they do not start with text. -/
def EndsText (ts : List Token) : Prop := ∀ t ∈ ts.head?, t.isText = false

lemma endsText_nil : EndsText [] := by simp [EndsText]

lemma endsText_tag (fence : Fence) (contents : List Char) (ts : List Token) :
    EndsText (fence.tag contents ++ ts) := by
  simp [EndsText, Fence.tag, Token.isText]

lemma EndsText.append {ts us : List Token} (hts : EndsText ts) (hus : EndsText us) :
    EndsText (ts ++ us) := by
  cases ts with
  | nil => exact hus
  | cons t ts => simpa [EndsText] using hts

lemma EndsText.left {ts us : List Token} (h : EndsText (ts ++ us)) : EndsText ts := by
  cases ts with
  | nil => exact endsText_nil
  | cons t ts => simpa [EndsText] using h

namespace Segment

/-! ### The first segment -/

/-- Segments that do not start with text stay as they are behind a text. -/
lemma prepend_of_endsText {ts : List Token} (h : EndsText ts) (cs : List Char) :
    prepend cs (ofTokens ts) = text cs :: ofTokens ts := by
  match ts with
  | [] => rfl
  | .character c :: ts => simp [EndsText, Token.isText] at h
  | .closing fence :: ts => simp [EndsText, Token.isText] at h
  | .opening fence :: ts =>
    rw [ofTokens, Open.complete]
    split
    · cases fence <;> rfl
    · rfl

lemma ofTokens_cons_text {t : Token} (h : t.isText = true) (ts : List Token) :
    ofTokens (t :: ts) = prepend t.text (ofTokens ts) := by
  cases t with
  | character c => rfl
  | closing fence => rfl
  | opening fence => simp [Token.isText] at h

/-- A run of text is one segment. -/
theorem ofTokens_run {run ts : List Token} (hne : run ≠ []) (hrun : ∀ t ∈ run, t.isText = true)
    (hts : EndsText ts) : ofTokens (run ++ ts) = text (run.flatMap Token.text) :: ofTokens ts := by
  induction run with
  | nil => exact absurd rfl hne
  | cons t run ih =>
    rw [List.cons_append, ofTokens_cons_text (hrun t (by simp))]
    by_cases hnil : run = []
    · subst hnil
      simpa using prepend_of_endsText hts t.text
    · rw [ih hnil fun u hu => hrun u (by simp [hu])]
      rfl

/-- A tag reaches to the first token that is not a character. -/
lemma inTag_characters (fence : Fence) (contents : List Char) (ts : List Token) :
    inTag fence (contents.map Token.character ++ ts) =
      { inTag fence ts with contents := contents ++ (inTag fence ts).contents } := by
  induction contents with
  | nil => rfl
  | cons c contents ih => simp [inTag, ih]

lemma ofTokens_open (fence : Fence) (contents : List Char) (ts : List Token) :
    ofTokens (.opening fence :: (contents.map Token.character ++ ts)) =
      Open.complete fence (continuesBlock (contents.map Token.character ++ ts))
        { inTag fence ts with contents := contents ++ (inTag fence ts).contents } := by
  rw [ofTokens, inTag_characters]

lemma ofTokens_fence (fence : Fence) (contents : List Char) (ts : List Token) :
    ofTokens (fence.tag contents ++ ts) =
      closed fence (continuesBlock (contents.map Token.character ++ Token.closing fence :: ts))
        contents :: ofTokens ts := by
  have h := ofTokens_open fence contents (.closing fence :: ts)
  simpa [Fence.tag, inTag, Open.complete] using h

/-- A complete plain tag is one segment. -/
theorem ofTokens_tag (contents : List Char) (ts : List Token) :
    ofTokens (Fence.plain.tag contents ++ ts) =
      tag (Tag.classify contents).continues contents :: ofTokens ts := by
  rw [ofTokens_fence, continuesBlock_eq_continues, closed]

/-- A complete markdown tag is one segment. -/
theorem ofTokens_markdown (contents : List Char) (ts : List Token) :
    ofTokens (Fence.markdown.tag contents ++ ts) = markdown contents :: ofTokens ts := by
  rw [ofTokens_fence, closed]

/-! ### All beginnings -/

/-- How a row of tokens begins, and what follows. -/
inductive Front : List Token → Prop
  | nil : Front []
  | run {run ts : List Token} (hne : run ≠ []) (hrun : ∀ t ∈ run, t.isText = true)
      (hts : EndsText ts) : Front (run ++ ts)
  | tag (fence : Fence) (contents : List Char) (ts : List Token) :
      Front (fence.tag contents ++ ts)
  | broken {ts : List Token} (fence : Fence) (contents : List Char) (found : Option Token)
      (rest : List Segment) (h : ofTokens ts = broken fence contents found :: rest) : Front ts

lemma exists_run (ts : List Token) :
    ∃ run rest, ts = run ++ rest ∧ (∀ t ∈ run, t.isText = true) ∧ EndsText rest := by
  refine ⟨ts.takeWhile Token.isText, ts.dropWhile Token.isText, by simp, ?_, ?_⟩
  · exact fun t ht => List.mem_takeWhile_imp ht
  · intro t ht
    have h := List.head?_dropWhile_not Token.isText ts
    rw [Option.mem_def] at ht
    simpa [ht] using h

lemma exists_characters (ts : List Token) :
    ∃ (contents : List Char) (rest : List Token), ts = contents.map Token.character ++ rest ∧
      ∀ c us, rest ≠ Token.character c :: us := by
  induction ts with
  | nil => exact ⟨[], [], rfl, by simp⟩
  | cons t ts ih =>
    match t with
    | .character c =>
      obtain ⟨contents, rest, rfl, hrest⟩ := ih
      exact ⟨c :: contents, rest, rfl, hrest⟩
    | .opening fence => exact ⟨[], .opening fence :: ts, rfl, by simp⟩
    | .closing fence => exact ⟨[], .closing fence :: ts, rfl, by simp⟩

/-- Every row of tokens begins in one of the ways above. -/
theorem exists_front (ts : List Token) : Front ts := by
  obtain ⟨run, rest, rfl, hrun, hrest⟩ := exists_run ts
  by_cases hne : run = []
  · subst hne
    rw [List.nil_append]
    match rest, hrest with
    | [], _ => exact .nil
    | .character c :: us, hrest => simp [EndsText, Token.isText] at hrest
    | .closing fence :: us, hrest => simp [EndsText, Token.isText] at hrest
    | .opening fence :: us, _ =>
      obtain ⟨contents, us, rfl, hus⟩ := exists_characters us
      match us, hus with
      | [], _ =>
        refine .broken fence contents none [] ?_
        rw [ofTokens_open]
        simp [inTag, Open.complete]
      | .character c :: vs, hus => exact absurd rfl (hus c vs)
      | .opening other :: vs, _ =>
        refine .broken fence contents (some (.opening other)) (ofTokens (.opening other :: vs)) ?_
        rw [ofTokens_open]
        simp [inTag, Open.complete, ofTokens]
      | .closing other :: vs, _ =>
        by_cases h : other = fence
        · subst h
          have hfront := Front.tag other contents vs
          simpa [Fence.tag] using hfront
        · refine .broken fence contents (some (.closing other)) (ofTokens (.closing other :: vs)) ?_
          rw [ofTokens_open]
          simp [inTag, Open.complete, ofTokens, h]
  · exact .run hne hrun hrest

end Segment
end Template
end FormLetter

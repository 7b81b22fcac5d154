/-
# What tags say

Two ways of looking at a tag agree: the look-ahead, which reads the tokens behind an opening
delimiter as far as the first word of the tag, and the classification of the contents of the whole
tag (`continuesBlock_eq_continues`).

What a tag says depends on its trimmed contents only.  The second half of this file looks at what
stands in the contents: the argument of a tag does, without blanks at its ends
(`argument_classify`), and conversely each tag can be written with its keyword and
its argument, with blanks around them.
-/
import FormLetter.Template.Tag
import FormLetter.Proofs.Trim

namespace FormLetter
namespace Template

open Text

/-- What a tag says that starts with neither of the two marks. -/
lemma Tag.classify_word {contents : List Char} (hhash : '#' ∉ (trim contents).head?)
    (hslash : '/' ∉ (trim contents).head?) :
    classify contents =
      if (splitWord (trim contents)).1 = elseWord then
        otherwise (String.ofList (splitWord (trim contents)).2)
      else if (splitWord (trim contents)).1 = elseIfWord then
        otherwiseIf (String.ofList (splitWord (trim contents)).2)
      else path (String.ofList (trim contents)) := by
  rw [classify]
  split
  · next h => simp [h] at hhash
  · next h => simp [h] at hslash
  · rfl

/-! ### The look-ahead -/

lemma dropWhile_isBlank_characters (contents : List Char) (ts : List Token) :
    (contents.map Token.character ++ Token.closing .plain :: ts).dropWhile Token.isBlank =
      (trimStart contents).map Token.character ++ Token.closing .plain :: ts := by
  induction contents with
  | nil => simp [trimStart, Token.isBlank]
  | cons c contents ih =>
    by_cases h : isBlank c = true
    · rw [trimStart_blank h, ← ih]
      simp [Token.isBlank, h]
    · rw [trimStart_ink (by simpa using h)]
      simp [Token.isBlank, h]

/-- In a complete tag the first word reaches to the first blank or to the end of the contents. -/
lemma firstWord?_characters (contents : List Char) (ts : List Token) :
    firstWord? (contents.map Token.character ++ Token.closing .plain :: ts) =
      some (contents.takeWhile (!isBlank ·)) := by
  induction contents with
  | nil => rfl
  | cons c contents ih => by_cases h : isBlank c = true <;> simp [firstWord?, h, ih]

/-- The look-ahead on a tag that does not start with the slash looks at its first word only. -/
lemma continuesBlock_word {contents : List Char} (ts : List Token)
    (hslash : '/' ∉ (trim contents).head?) :
    continuesBlock (contents.map Token.character ++ Token.closing .plain :: ts) =
      (decide ((splitWord (trim contents)).1 = Tag.elseWord) ||
        decide ((splitWord (trim contents)).1 = Tag.elseIfWord)) := by
  have hword : (splitWord (trim contents)).1 = (trimStart contents).takeWhile (!isBlank ·) :=
    takeWhile_trimEnd _
  rw [continuesBlock, dropWhile_isBlank_characters]
  split
  · next h =>
    cases hstart : trimStart contents with
    | nil => simp [hstart] at h
    | cons c rest =>
      rw [hstart, List.map_cons, List.cons_append, List.cons.injEq, Token.character.injEq] at h
      exact absurd (by rw [head?_trim, hstart, h.1]; rfl) hslash
  · rw [firstWord?_characters, hword]
    simp only [beq_eq_decide, Option.some.injEq]

/-- The tag closes or goes on with a block just in case it looks like it. -/
theorem continuesBlock_eq_continues (contents : List Char) (ts : List Token) :
    continuesBlock (contents.map Token.character ++ Token.closing .plain :: ts) =
      (Tag.classify contents).continues := by
  cases htrim : trim contents with
  | nil =>
    rw [continuesBlock_word ts (by simp [htrim]),
      Tag.classify_word (by simp [htrim]) (by simp [htrim]), htrim]
    rfl
  | cons c rest =>
    by_cases hslash : c = '/'
    · subst hslash
      have hstart : (trimStart contents).head? = some '/' := by simp [← head?_trim, htrim]
      obtain ⟨rest', hrest'⟩ := List.head?_eq_some_iff.1 hstart
      rw [continuesBlock, dropWhile_isBlank_characters, hrest']
      simp [Tag.classify, htrim, Tag.continues]
    · rw [continuesBlock_word ts (by simp [htrim, hslash]), htrim]
      by_cases hhash : c = '#'
      · subst hhash
        have hink : isBlank '#' = false := by decide
        simp [Tag.classify, htrim, splitWord, hink, Tag.elseWord, Tag.elseIfWord, Tag.continues]
      · rw [Tag.classify_word (by simp [htrim, hhash]) (by simp [htrim, hslash]), htrim]
        split_ifs with h1 h2 <;> simp_all [Tag.continues]

namespace Tag

/-! ### The argument of a tag -/

/-- The path, the condition or the source that a tag gives. -/
def argument? : Tag → Option String
  | directive _ argument => some argument
  | otherwiseIf condition => some condition
  | path p => some p
  | close _ => none
  | otherwise _ => none

lemma argument_classify {contents : List Char} {a : String}
    (h : a ∈ (classify contents).argument?) : Trimmed a.toList ∧ a.toList <:+: trim contents := by
  have hword : ∀ cs, Trimmed (splitWord cs).2 ∧ (splitWord cs).2 <:+: cs :=
    fun cs => ⟨trimmed_trim _, infix_splitWord cs⟩
  by_cases hhash : '#' ∈ (trim contents).head?
  · obtain ⟨rest, hrest⟩ := List.head?_eq_some_iff.1 hhash
    obtain rfl : String.ofList (splitWord rest).2 = a := by
      simpa [classify, hrest, argument?] using h
    rw [String.toList_ofList, hrest]
    exact ⟨(hword rest).1, (hword rest).2.trans (List.suffix_cons _ _).isInfix⟩
  · by_cases hslash : '/' ∈ (trim contents).head?
    · obtain ⟨rest, hrest⟩ := List.head?_eq_some_iff.1 hslash
      simp [classify, hrest, argument?] at h
    · rw [classify_word hhash hslash] at h
      split_ifs at h with helse helseif
      · simp [argument?] at h
      · obtain rfl : String.ofList (splitWord (trim contents)).2 = a := by simpa [argument?] using h
        rw [String.toList_ofList]
        exact hword _
      · obtain rfl : String.ofList (trim contents) = a := by simpa [argument?] using h
        rw [String.toList_ofList]
        exact ⟨trimmed_trim _, List.infix_refl _⟩

/-! ### Contents with blanks around the words -/

lemma classify_congr {contents contents' : List Char} (h : trim contents = trim contents') :
    classify contents = classify contents' := by
  simp only [classify, h]

/-- A path that is told from a tag is told from the path alone. -/
lemma classify_path {contents : List Char} {a : String} (h : classify contents = path a) :
    classify a.toList = path a := by
  have htrim : a.toList = trim contents := by
    by_cases hhash : '#' ∈ (trim contents).head?
    · obtain ⟨rest, hrest⟩ := List.head?_eq_some_iff.1 hhash
      simp [classify, hrest] at h
    · by_cases hslash : '/' ∈ (trim contents).head?
      · obtain ⟨rest, hrest⟩ := List.head?_eq_some_iff.1 hslash
        simp [classify, hrest] at h
      · rw [classify_word hhash hslash] at h
        split_ifs at h
        obtain rfl := path.inj h
        exact String.toList_ofList
  rw [← h]
  exact classify_congr (by rw [htrim, trim_of_trimmed (trimmed_trim contents)])

variable {v w x : List Char} {argument : String}

lemma classify_pad {word : List Char} (hv : Gap v) (hw : Gap w) (hword : Trimmed word) :
    classify (v ++ word ++ w) = classify word :=
  classify_congr (by rw [trim_pad hv.blanks hword hw.blanks, trim_of_trimmed hword])

lemma classify_close (name : String) (hne : name ≠ "") (hname : Trimmed name.toList) (hv : Gap v)
    (hw : Gap w) : classify (v ++ ('/' :: name.toList) ++ w) = close name := by
  have hslash : Ink ['/'] := by decide
  have hnil : name.toList ≠ [] := by simpa using hne
  have hword : Trimmed ('/' :: name.toList) :=
    trimmed_words (w := []) (by simp) hslash hnil hname
  rw [classify_pad hv hw hword, classify, trim_of_trimmed hword]
  simp only [trim_of_trimmed hname, String.ofList_toList]

lemma classify_otherwise (hv : Gap v) (hw : Gap w) :
    classify (v ++ elseWord ++ w) = otherwise "" := by
  rw [classify_pad hv hw (trimmed_of_ink (by decide))]
  rfl

/-- The trimmed contents of a tag of a word and an argument. -/
lemma trim_words {word : List Char} (hne : word ≠ []) (hword : Ink word)
    (hnil : argument ≠ "") (harg : Trimmed argument.toList) (hv : Gap v) (hx : Gap x) :
    trim (v ++ (word ++ w ++ argument.toList) ++ x) = word ++ w ++ argument.toList :=
  trim_pad hv.blanks (trimmed_words hne hword (by simpa using hnil) harg) hx.blanks

lemma classify_directive (keyword : String) (hkeyword : Ink keyword.toList)
    (hnil : argument ≠ "") (harg : Trimmed argument.toList) (hv : Gap v) (hw : Gap w) (hx : Gap x) :
    classify (v ++ ('#' :: keyword.toList ++ w ++ argument.toList) ++ x) =
      directive keyword argument := by
  have hword : Ink ('#' :: keyword.toList) :=
    List.forall_mem_cons.2 ⟨by decide, hkeyword⟩
  rw [classify, trim_words (by simp) hword hnil harg hv hx]
  simp only [List.cons_append, splitWord_pad hkeyword hw harg, String.ofList_toList]

lemma classify_otherwiseIf (hnil : argument ≠ "") (harg : Trimmed argument.toList) (hv : Gap v)
    (hw : Gap w) (hx : Gap x) :
    classify (v ++ (elseIfWord ++ w ++ argument.toList) ++ x) = otherwiseIf argument := by
  have hword : Ink elseIfWord := by decide
  have htrim := trim_words (w := w) (by decide) hword hnil harg hv hx
  have hhead : (elseIfWord ++ w ++ argument.toList).head? = some 'e' := rfl
  have hne : elseIfWord ≠ elseWord := by decide
  rw [classify_word (by rw [htrim, hhead]; simp) (by rw [htrim, hhead]; simp), htrim,
    splitWord_pad hword hw harg, if_neg hne, if_pos rfl, String.ofList_toList]

end Tag
end Template
end FormLetter

/-
# Trimmed texts

A text is trimmed if neither its first nor its last character is a blank.  Trimming a text gives a
trimmed text, and the given text is that text with blanks on either side; conversely, a trimmed text
with blanks on either side is trimmed to that text (`trim_pad`).

The first word of a text does not depend on the blanks at its end, and it ends at the first blank
(`takeWhile_trimEnd`, `splitWord_pad`).
-/
import FormLetter.Text.Cutting
import Mathlib.Data.List.Basic
import Mathlib.Data.List.TakeWhile

namespace FormLetter
namespace Text

/-- A text of nothing but blanks. -/
def Blanks (cs : List Char) : Prop := ∀ c ∈ cs, isBlank c = true

/-- A text without blanks. -/
def Ink (cs : List Char) : Prop := ∀ c ∈ cs, isBlank c = false

instance (cs : List Char) : Decidable (Blanks cs) :=
  decidable_of_iff (cs.all isBlank = true) List.all_eq_true

instance (cs : List Char) : Decidable (Ink cs) :=
  decidable_of_iff (cs.all (!isBlank ·) = true) (by simp [Ink])

/-- Blanks that keep two words apart. -/
structure Gap (w : List Char) : Prop where
  ne_nil : w ≠ []
  blanks : Blanks w

/-- A text that neither starts nor ends with a blank. -/
def Trimmed (cs : List Char) : Prop :=
  (∀ c ∈ cs.head?, isBlank c = false) ∧ ∀ c ∈ cs.getLast?, isBlank c = false

lemma trimmed_of_ink {cs : List Char} (h : Ink cs) : Trimmed cs :=
  ⟨fun c hc => h c (List.mem_of_mem_head? hc), fun c hc => h c (List.mem_of_getLast? hc)⟩

lemma Blanks.reverse {w : List Char} (h : Blanks w) : Blanks w.reverse := by
  intro c hc
  exact h c (List.mem_reverse.1 hc)

lemma blanks_takeWhile (cs : List Char) : Blanks (cs.takeWhile isBlank) :=
  fun _ hc => List.mem_takeWhile_imp hc

/-! ### What is trimmed away -/

lemma dropWhile_blanks {w : List Char} (h : Blanks w) (cs : List Char) :
    (w ++ cs).dropWhile isBlank = cs.dropWhile isBlank :=
  List.dropWhile_append_of_pos h

lemma dropWhile_of_head {cs : List Char} (h : ∀ c ∈ cs.head?, isBlank c = false) :
    cs.dropWhile isBlank = cs := by
  cases cs with
  | nil => rfl
  | cons c cs => simp [h c (by simp)]

lemma head_dropWhile (cs : List Char) : ∀ c ∈ (cs.dropWhile isBlank).head?, isBlank c = false := by
  intro c hc
  have h := List.head?_dropWhile_not isBlank cs
  rw [Option.mem_def] at hc
  simpa [hc] using h

lemma exists_trimStart (cs : List Char) : ∃ w, Blanks w ∧ cs = w ++ trimStart cs :=
  ⟨cs.takeWhile isBlank, blanks_takeWhile cs, by simp [trimStart]⟩

lemma exists_trimEnd (cs : List Char) : ∃ w, Blanks w ∧ cs = trimEnd cs ++ w := by
  obtain ⟨w, hw, h⟩ := exists_trimStart cs.reverse
  refine ⟨w.reverse, hw.reverse, ?_⟩
  have h' := congrArg List.reverse h
  simpa [trimEnd, trimStart] using h'

/-- A text is what trimming leaves of it, with blanks on either side. -/
lemma exists_trim (cs : List Char) : ∃ v w, Blanks v ∧ Blanks w ∧ cs = v ++ trim cs ++ w := by
  obtain ⟨v, hv, hcs⟩ := exists_trimStart cs
  obtain ⟨w, hw, h⟩ := exists_trimEnd (trimStart cs)
  refine ⟨v, w, hv, hw, ?_⟩
  rw [List.append_assoc, trim, ← h]
  exact hcs

lemma trimEnd_blanks {w : List Char} (h : Blanks w) (cs : List Char) :
    trimEnd (cs ++ w) = trimEnd cs := by
  simp [trimEnd, dropWhile_blanks h.reverse]

lemma trimEnd_of_last {cs : List Char} (h : ∀ c ∈ cs.getLast?, isBlank c = false) :
    trimEnd cs = cs := by
  have h' : cs.reverse.dropWhile isBlank = cs.reverse :=
    dropWhile_of_head (by simpa using h)
  simp [trimEnd, h']

/-- Trimming a trimmed text with blanks on either side gives that text. -/
lemma trim_pad {v cs w : List Char} (hv : Blanks v) (h : Trimmed cs) (hw : Blanks w) :
    trim (v ++ cs ++ w) = cs := by
  cases cs with
  | nil =>
    have hvw : trimStart (v ++ w) = [] := by
      rw [trimStart, dropWhile_blanks hv]
      exact List.dropWhile_eq_nil_iff.2 hw
    simp [trim, hvw, trimEnd]
  | cons c cs =>
    have hc : trimStart (v ++ (c :: cs) ++ w) = c :: cs ++ w := by
      rw [List.append_assoc, trimStart, dropWhile_blanks hv]
      exact dropWhile_of_head (by simpa using h.1)
    rw [trim, hc, trimEnd_blanks hw, trimEnd_of_last h.2]

lemma trim_of_trimmed {cs : List Char} (h : Trimmed cs) : trim cs = cs := by
  have hnil : Blanks [] := by simp [Blanks]
  simpa using trim_pad hnil h hnil

/-- The blanks at the end of a text are not at its start. -/
lemma head?_trimEnd {cs : List Char} (h : ∀ c ∈ cs.head?, isBlank c = false) :
    (trimEnd cs).head? = cs.head? := by
  obtain ⟨w, hw, hcs⟩ := exists_trimEnd cs
  cases ht : trimEnd cs with
  | cons c rest => rw [hcs, ht]; rfl
  | nil =>
    rw [ht, List.nil_append] at hcs
    cases w with
    | nil => rw [hcs]
    | cons c w =>
      have hc := h c (by simp [hcs])
      rw [hw c (by simp)] at hc
      exact absurd hc (by simp)

lemma head?_trim (cs : List Char) : (trim cs).head? = (trimStart cs).head? :=
  head?_trimEnd (head_dropWhile cs)

lemma last_trimEnd (cs : List Char) : ∀ c ∈ (trimEnd cs).getLast?, isBlank c = false := by
  intro c hc
  rw [trimEnd, List.getLast?_reverse] at hc
  exact head_dropWhile _ c hc

lemma trimmed_trim (cs : List Char) : Trimmed (trim cs) := by
  refine ⟨?_, last_trimEnd _⟩
  intro c hc
  rw [head?_trim] at hc
  exact head_dropWhile cs c hc

lemma infix_trim (cs : List Char) : trim cs <:+: cs := by
  obtain ⟨v, w, -, -, hcs⟩ := exists_trim cs
  exact ⟨v, w, hcs.symm⟩

/-! ### The first word -/

lemma takeWhile_blanks {w : List Char} (h : Blanks w) : w.takeWhile (!isBlank ·) = [] := by
  cases w with
  | nil => rfl
  | cons c w => simp [h c (by simp)]

/-- The blanks at the end of a text do not belong to its first word. -/
lemma takeWhile_trimEnd (cs : List Char) :
    (trimEnd cs).takeWhile (!isBlank ·) = cs.takeWhile (!isBlank ·) := by
  obtain ⟨w, hw, hcs⟩ := exists_trimEnd cs
  have h := congrArg (List.takeWhile (!isBlank ·)) hcs
  rw [h, List.takeWhile_append]
  -- the word may reach to the end of the trimmed text, but not into the blanks behind it
  split
  · next hlen =>
    rw [takeWhile_blanks hw, List.append_nil]
    exact (List.takeWhile_prefix _).eq_of_length hlen
  · rfl

/-- The first word of a text that goes on with a blank behind it, and the trimmed rest. -/
lemma splitWord_pad {word w cs : List Char} (hword : Ink word)
    (hw : Gap w) (hcs : Trimmed cs) : splitWord (word ++ w ++ cs) = (word, cs) := by
  have hink : ∀ c ∈ word, (!isBlank c) = true := fun c hc => by simp [hword c hc]
  have hfirst : ∀ ds, (w ++ ds).takeWhile (!isBlank ·) = [] ∧
      (w ++ ds).dropWhile (!isBlank ·) = w ++ ds := by
    intro ds
    cases w with
    | nil => exact absurd rfl hw.ne_nil
    | cons c w => simp [hw.blanks c (by simp)]
  have htrim : trim (w ++ cs) = cs := by
    simpa using trim_pad hw.blanks hcs (w := []) (by simp [Blanks])
  rw [splitWord, List.append_assoc, List.takeWhile_append_of_pos hink,
    List.dropWhile_append_of_pos hink, (hfirst cs).1, (hfirst cs).2, htrim, List.append_nil]

lemma infix_splitWord (cs : List Char) : (splitWord cs).2 <:+: cs :=
  (infix_trim _).trans (List.dropWhile_suffix _).isInfix

/-- A word with more behind it is trimmed if what comes last is. -/
lemma trimmed_words {word w cs : List Char} (hne : word ≠ [])
    (hword : Ink word) (hnil : cs ≠ []) (hcs : Trimmed cs) :
    Trimmed (word ++ w ++ cs) := by
  constructor
  · intro c hc
    rw [List.append_assoc, List.head?_append_of_ne_nil _ hne] at hc
    exact hword c (List.mem_of_mem_head? hc)
  · intro c hc
    rw [List.getLast?_append_of_ne_nil _ hnil] at hc
    exact hcs.2 c hc

end Text
end FormLetter

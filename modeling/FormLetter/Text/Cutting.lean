/-
# Cutting a text

A text can be trimmed at its ends, and it can be cut behind its first word, into its lines, or at
each occurrence of a separator.

* Blanks around the contents of a tag and around a line of markdown do not count, and the first
  blank of a tag ends its first word.
* A line ends at a line feed, and a carriage return directly before that line feed belongs to the
  line end.  A text that ends with a line feed has no empty line after it.
* A text with `n` separators has `n + 1` parts, some of which may be empty, and joining the parts
  gives the text back (`join_parts`).
-/
import FormLetter.Text.Classes

namespace FormLetter
namespace Text

/-! ### Trimming -/

/-- A text without the blanks at its start. -/
def trimStart (cs : List Char) : List Char := cs.dropWhile isBlank

/-- A text without the blanks at its end. -/
def trimEnd (cs : List Char) : List Char := (cs.reverse.dropWhile isBlank).reverse

/-- A text without the blanks at its two ends. -/
def trim (cs : List Char) : List Char := trimEnd (trimStart cs)

/-- The first word of a text, and what follows it, trimmed.  A text that starts with a blank has an
empty first word. -/
def splitWord (cs : List Char) : List Char × List Char :=
  (cs.takeWhile (!isBlank ·), trim (cs.dropWhile (!isBlank ·)))

theorem trimStart_blank {c : Char} (h : isBlank c = true) (cs : List Char) :
    trimStart (c :: cs) = trimStart cs := by
  simp [trimStart, h]

theorem trimStart_ink {c : Char} (h : isBlank c = false) (cs : List Char) :
    trimStart (c :: cs) = c :: cs := by
  simp [trimStart, h]

/-! ### Lines -/

/-- The lines of a text, without their line ends. -/
def lines : List Char → List (List Char)
  | [] => []
  | '\n' :: cs => [] :: lines cs
  | '\r' :: '\n' :: cs => [] :: lines cs
  | c :: cs =>
    match lines cs with
    | [] => [[c]]
    | line :: rest => (c :: line) :: rest

/-! ### Parts between separators -/

/-- The parts of a text between its separators. -/
def parts (separator : Char) : List Char → List (List Char)
  | [] => [[]]
  | c :: cs =>
    if c = separator then [] :: parts separator cs
    else
      match parts separator cs with
      | [] => [[c]]
      | part :: rest => (c :: part) :: rest

/-- Parts with the separator between any two neighbours. -/
def join (separator : Char) : List (List Char) → List Char
  | [] => []
  | [part] => part
  | part :: next :: rest => part ++ separator :: join separator (next :: rest)

theorem parts_ne_nil (separator : Char) (cs : List Char) : parts separator cs ≠ [] := by
  cases cs with
  | nil => simp [parts]
  | cons c cs =>
    by_cases h : c = separator
    · simp [parts, h]
    · cases hparts : parts separator cs <;> simp [parts, h, hparts]

/-- Joining the parts of a text gives the text back. -/
theorem join_parts (separator : Char) (cs : List Char) :
    join separator (parts separator cs) = cs := by
  induction cs with
  | nil => rfl
  | cons c cs ih =>
    have hne := parts_ne_nil separator cs
    cases hparts : parts separator cs with
    | nil => exact absurd hparts hne
    | cons part rest =>
      rw [hparts] at ih
      by_cases h : c = separator
      · simp [parts, h, hparts, join, ih]
      · cases rest <;> simp_all [parts, join]

end Text
end FormLetter

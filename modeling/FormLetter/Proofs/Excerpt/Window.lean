/-
# The lines in an excerpt

An excerpt is a page of rows between two rules, and a row has the number of a source line, its text
and a mark.  The rows around a line are put together from three pieces: those in front of the line,
the line itself if there is one, and those behind it.  The numbers of the pieces join, so the rows
are the lines from three in front of the line to three behind it, as far as the source has them, and
only the line itself is marked (`exists_rows`).
-/
import FormLetter.Error.Basic
import Mathlib.Data.List.Basic
import Mathlib.Data.List.Range

namespace FormLetter
namespace Excerpt

/-- A row of an excerpt. -/
structure Row where
  mark : Char
  /-- The number of the line, counted from one. -/
  number : Nat
  text : List Char
deriving DecidableEq

/-- The row as it is written. -/
def Row.written (r : Row) : List Char := row r.mark r.number r.text

/-- Rows with a title above them and a rule below. -/
def page (rows : List Row) : List Char :=
  rule title ++ '\n' :: (rows.flatMap Row.written ++ rule [])

/-- The rows show the lines of the source around the line of the given number. -/
structure IsWindow (line : Nat) (source : String) (rows : List Row) : Prop where
  /-- The lines come in their order, each of them once. -/
  numbers_eq : rows.map Row.number =
    List.range' (max 1 (line - 3))
      (min (Text.lines source.toList).length (line + 3) + 1 - max 1 (line - 3))
  text_eq : ∀ r ∈ rows, (Text.lines source.toList)[r.number - 1]? = some r.text
  mark_eq : ∀ r ∈ rows, r.mark = if r.number = line then '>' else '|'

/-! ### Rows without a mark -/

/-- Consecutive lines without a mark, the first of them with the given number. -/
def unmarked (number : Nat) (texts : List (List Char)) : List Row :=
  (texts.zipIdx number).map fun (text, n) => ⟨'|', n, text⟩

lemma unmarked_cons (number : Nat) (text : List Char) (texts : List (List Char)) :
    unmarked number (text :: texts) = ⟨'|', number, text⟩ :: unmarked (number + 1) texts := rfl

lemma flatMap_written_unmarked (number : Nat) (texts : List (List Char)) :
    (unmarked number texts).flatMap Row.written = rows number texts := by
  induction texts generalizing number with
  | nil => rfl
  | cons text texts ih => rw [unmarked_cons, List.flatMap_cons, ih, rows, Row.written]

lemma map_number_unmarked (number : Nat) (texts : List (List Char)) :
    (unmarked number texts).map Row.number = List.range' number texts.length := by
  induction texts generalizing number with
  | nil => rfl
  | cons text texts ih => rw [unmarked_cons, List.map_cons, ih, List.length_cons, List.range'_succ]

/-- A row is found at its place. -/
lemma exists_of_mem_unmarked {number : Nat} {texts : List (List Char)} {r : Row}
    (h : r ∈ unmarked number texts) :
    ∃ i, texts[i]? = some r.text ∧ r.number = number + i ∧ r.mark = '|' := by
  obtain ⟨⟨text, n⟩, hmem, rfl⟩ := List.mem_map.1 h
  obtain ⟨hle, hlt, heq⟩ := List.mem_zipIdx hmem
  refine ⟨n - number, ?_, by simp only; omega, rfl⟩
  rw [List.getElem?_eq_getElem (by omega), heq]

/-! ### The three pieces -/

/-- The rows around the line with the given number. -/
def rowsAround (line : Nat) (lines : List (List Char)) : List Row :=
  let index := line - 1
  let first := index - margin
  unmarked (first + 1) ((lines.drop first).take (index - first)) ++
    ((lines[index]?).elim [] fun text => [⟨'>', index + 1, text⟩]) ++
      unmarked (index + 2) ((lines.drop (index + 1)).take margin)

lemma around_eq (line : Nat) (source : String) :
    around line source = String.ofList (page (rowsAround line (Text.lines source.toList))) := by
  have hmarked (index : Nat) (text? : Option (List Char)) :
      (text?.elim [] fun text => [(⟨'>', index + 1, text⟩ : Row)]).flatMap Row.written =
        text?.elim [] (row '>' (index + 1)) := by
    cases text? with
    | none => rfl
    | some text => exact List.append_nil _
  simp only [around, page, rowsAround, List.flatMap_append, flatMap_written_unmarked, hmarked,
    List.append_assoc]

section

variable {line : Nat} {lines : List (List Char)}

lemma range'_append_of_le {a b c : Nat} (hab : a ≤ b) (hbc : b ≤ c) :
    List.range' a (b - a) ++ List.range' b (c - b) = List.range' a (c - a) := by
  have happend := List.range'_append_1 (s := a) (m := b - a) (n := c - b)
  rwa [Nat.add_sub_of_le hab, show b - a + (c - b) = c - a by omega] at happend

/-- The numbers of the pieces join. -/
lemma map_number_rowsAround (hline : 1 ≤ line) :
    (rowsAround line lines).map Row.number =
      List.range' (max 1 (line - 3)) (min lines.length (line + 3) + 1 - max 1 (line - 3)) := by
  have hfirst : line - 1 - margin + 1 = max 1 (line - 3) := by
    simp only [margin]
    omega
  have hbefore : ((lines.drop (line - 1 - margin)).take (line - 1 - (line - 1 - margin))).length =
      min line (lines.length + 1) - max 1 (line - 3) := by
    rw [List.length_take, List.length_drop]
    omega
  have hbehind : ((lines.drop (line - 1 + 1)).take margin).length =
      min lines.length (line + 3) + 1 - (line + 1) := by
    rw [List.length_take, List.length_drop]
    simp only [margin]
    omega
  simp only [rowsAround, List.map_append, map_number_unmarked, hfirst, hbefore, hbehind]
  by_cases hlast : line ≤ lines.length
  · have hmarked : lines[line - 1]? = some lines[line - 1] := List.getElem?_eq_getElem (by omega)
    have hnumber : [line - 1 + 1] = List.range' line (line + 1 - line) := by
      rw [Nat.sub_add_cancel hline, Nat.add_sub_cancel_left, List.range'_one]
    rw [hmarked, Option.elim_some, List.map_singleton, hnumber, Nat.min_eq_left (by omega),
      show line - 1 + 2 = line + 1 by omega, range'_append_of_le (by omega) (by omega),
      range'_append_of_le (by omega) (by omega)]
  · -- the source ends in front of the line
    have hmarked : lines[line - 1]? = none := List.getElem?_eq_none (by omega)
    have hnone : min lines.length (line + 3) + 1 - (line + 1) = 0 := by omega
    rw [hmarked, hnone, Nat.min_eq_right (by omega), Nat.min_eq_left (by omega)]
    simp

/-- Each row has the text of its line, and the mark of the line is its own. -/
lemma of_mem_rowsAround (hline : 1 ≤ line) {r : Row} (h : r ∈ rowsAround line lines) :
    lines[r.number - 1]? = some r.text ∧ r.mark = if r.number = line then '>' else '|' := by
  simp only [rowsAround, List.mem_append] at h
  rcases h with (hbefore | hmarked) | hbehind
  · obtain ⟨i, htext, hnumber, hmark⟩ := exists_of_mem_unmarked hbefore
    rw [List.getElem?_take] at htext
    split_ifs at htext with hi
    rw [List.getElem?_drop] at htext
    have hne : r.number ≠ line := by omega
    rw [if_neg hne]
    exact ⟨by rwa [hnumber, Nat.add_right_comm, Nat.add_sub_cancel], hmark⟩
  · cases htext : lines[line - 1]? with
    | none => simp [htext] at hmarked
    | some text =>
      rw [htext] at hmarked
      obtain rfl := List.mem_singleton.1 hmarked
      exact ⟨htext, by rw [if_pos (Nat.sub_add_cancel hline)]⟩
  · obtain ⟨i, htext, hnumber, hmark⟩ := exists_of_mem_unmarked hbehind
    rw [List.getElem?_take] at htext
    split_ifs at htext with hi
    rw [List.getElem?_drop] at htext
    have hne : r.number ≠ line := by omega
    rw [if_neg hne]
    exact ⟨by rwa [hnumber, show line - 1 + 2 + i - 1 = line - 1 + 1 + i by omega], hmark⟩

end

/-- An excerpt shows the lines around its line. -/
theorem exists_rows {line : Nat} (hline : 1 ≤ line) (source : String) :
    ∃ rows, around line source = String.ofList (page rows) ∧ IsWindow line source rows :=
  ⟨_, around_eq line source, map_number_rowsAround hline,
    fun _ hr => (of_mem_rowsAround hline hr).1, fun _ hr => (of_mem_rowsAround hline hr).2⟩

/-- Only the line itself is marked, if the source has it. -/
lemma IsWindow.mem_mark_iff {line : Nat} {source : String} {rows : List Row}
    (h : IsWindow line source rows) (hline : 1 ≤ line) {n : Nat} :
    (∃ r ∈ rows, r.mark = '>' ∧ r.number = n) ↔
      n = line ∧ n ≤ (Text.lines source.toList).length := by
  constructor
  · rintro ⟨r, hr, hmark, rfl⟩
    have hnumber : r.number ∈ rows.map Row.number := List.mem_map_of_mem hr
    rw [h.numbers_eq, List.mem_range'_1] at hnumber
    rw [h.mark_eq r hr] at hmark
    split_ifs at hmark with hline'
    · exact ⟨hline', by omega⟩
    · exact absurd hmark (by decide)
  · rintro ⟨rfl, hlast⟩
    have hnumber : n ∈ rows.map Row.number := by
      rw [h.numbers_eq, List.mem_range'_1]
      omega
    obtain ⟨r, hr, rfl⟩ := List.mem_map.1 hnumber
    exact ⟨r, hr, by rw [h.mark_eq r hr, if_pos rfl], rfl⟩

end Excerpt
end FormLetter

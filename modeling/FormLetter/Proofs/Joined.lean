/-
# Texts put together

A row of texts with separators can be put together in parts (`joined_append`, `joined_cut`), and its
characters are those of the first text and then, for each other text, the separator and that text
(`toList_joined_cons`).

To take texts apart again, their ends have to be found.  A text ends at the first delimiter behind it
if the delimiter is none of its characters, so the text and what is behind the delimiter are known
(`append_cons_inj`).
-/
import FormLetter.Text.Record
import Mathlib.Tactic.Common

namespace FormLetter
namespace Text

/-! ### Texts with separators between them -/

lemma joined_cons_of_ne_nil (separator text : String) {texts : List String} (h : texts ≠ []) :
    joined separator (text :: texts) = text ++ separator ++ joined separator texts := by
  cases texts with
  | nil => exact absurd rfl h
  | cons next texts => rfl

lemma joined_append (separator : String) {xs ys : List String} (hxs : xs ≠ []) (hys : ys ≠ []) :
    joined separator (xs ++ ys) = joined separator xs ++ separator ++ joined separator ys := by
  induction xs with
  | nil => exact absurd rfl hxs
  | cons x xs ih =>
    cases xs with
    | nil => exact joined_cons_of_ne_nil separator x hys
    | cons x' xs =>
      rw [List.cons_append, joined_cons_of_ne_nil _ _ (by simp), ih (by simp),
        joined_cons_of_ne_nil _ x (by simp)]
      simp only [String.append_assoc]

/-- A row of texts cut in the middle of one of them. -/
lemma joined_cut (separator : String) (xs : List String) (x y : String) (ys : List String) :
    joined separator (xs ++ (x ++ y) :: ys) =
      joined separator (xs ++ [x]) ++ joined separator (y :: ys) := by
  have hfirst : joined separator ((x ++ y) :: ys) = x ++ joined separator (y :: ys) := by
    cases ys with
    | nil => rfl
    | cons y' ys => simp only [joined, String.append_assoc]
  by_cases hxs : xs = []
  · subst hxs
    exact hfirst
  · rw [joined_append _ hxs (by simp), joined_append _ hxs (by simp), hfirst]
    simp only [joined, String.append_assoc]

/-- Behind the first text each text has the separator in front of it. -/
lemma toList_joined_cons (separator text : String) (texts : List String) :
    (joined separator (text :: texts)).toList =
      text.toList ++ texts.flatMap fun t => separator.toList ++ t.toList := by
  induction texts generalizing text with
  | nil => simp [joined]
  | cons next texts ih => simp [joined, ih]

lemma toList_joined_empty (texts : List String) :
    (joined "" texts).toList = texts.flatMap String.toList := by
  cases texts with
  | nil => rfl
  | cons text texts => simp [toList_joined_cons]

lemma joined_empty_append (xs ys : List String) :
    joined "" (xs ++ ys) = joined "" xs ++ joined "" ys := by
  rw [← String.toList_inj, String.toList_append]
  simp only [toList_joined_empty, List.flatMap_append]

/-! ### Texts with a delimiter behind them -/

/-- A text ends at the first delimiter behind it. -/
theorem append_cons_inj {delimiter : Char} {xs ys r s : List Char} (hxs : delimiter ∉ xs)
    (hys : delimiter ∉ ys) (h : xs ++ delimiter :: r = ys ++ delimiter :: s) : xs = ys ∧ r = s := by
  induction xs generalizing ys with
  | nil =>
    cases ys with
    | nil => exact ⟨rfl, (List.cons.inj h).2⟩
    | cons y ys => exact absurd (by simp [(List.cons.inj h).1]) hys
  | cons x xs ih =>
    cases ys with
    | nil => exact absurd (by simp [(List.cons.inj h).1]) hxs
    | cons y ys =>
      obtain ⟨rfl, hrest⟩ := List.cons.inj h
      obtain ⟨rfl, hbehind⟩ := ih (fun hmem => hxs (List.mem_cons_of_mem _ hmem))
        (fun hmem => hys (List.mem_cons_of_mem _ hmem)) hrest
      exact ⟨rfl, hbehind⟩

end Text
end FormLetter

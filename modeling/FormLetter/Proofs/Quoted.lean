/-
# Quoted text determines the text

Inside quotes a character stands for itself, has a short name behind a backslash, or is spelled out
as its code point (`escapedAs_escape`).  No two of these can be taken for each other whatever comes
behind them (`EscapedAs.append_inj`), and none of them starts with the quote that ends the text, so
quoted text determines both the text and where it ends (`quote_append_inj`).  All this holds
whichever characters count as extending or unprintable.
-/
import FormLetter.Proofs.Digits
import FormLetter.Proofs.Joined
import FormLetter.Text.Record

namespace FormLetter
namespace Text

/-! ### Single characters -/

/-- The characters that have a short name, each with that name. -/
def shortNames : List (Char × Char) :=
  [('\x00', '0'), ('\t', 't'), ('\n', 'n'), ('\r', 'r'), ('\\', '\\'), ('"', '"')]

/-- The ways in which a character can stand inside quotes. -/
inductive EscapedAs (c : Char) : List Char → Prop
  | itself (ne_backslash : c ≠ '\\') (ne_quote : c ≠ '"') : EscapedAs c [c]
  | named {name : Char} (mem : (c, name) ∈ shortNames) : EscapedAs c ['\\', name]
  | spelled : EscapedAs c (codePoint c)

lemma escapedAs_escape (c : Char) : EscapedAs c (escape c) := by
  unfold escape
  split_ifs with hnull htab hfeed hreturn hbackslash hquote
  · exact .named (by simp [shortNames, hnull])
  · exact .named (by simp [shortNames, htab])
  · exact .named (by simp [shortNames, hfeed])
  · exact .named (by simp [shortNames, hreturn])
  · exact .named (by simp [shortNames, hbackslash])
  · exact .named (by simp [shortNames, hquote])
  · exact .spelled
  · exact .itself hbackslash hquote

/-- A code point ends at the first closing brace. -/
lemma codePoint_append_inj {c d : Char} {r s : List Char}
    (h : codePoint c ++ r = codePoint d ++ s) : c = d ∧ r = s := by
  have hbrace : ∀ n, '}' ∉ Nat.toDigits 16 n :=
    notMem_toDigits (by decide) fun n => Nat.digitChar_ne '}' rfl
  simp only [codePoint, List.cons_append, List.append_assoc, List.nil_append, List.cons.injEq,
    true_and] at h
  obtain ⟨hdigits, hrest⟩ := append_cons_inj (hbrace _) (hbrace _) h
  exact ⟨Char.toNat_inj.1 (toDigits_inj (by decide) (by decide) hdigits), hrest⟩

namespace EscapedAs

variable {c d : Char} {w x r s : List Char}

/-- The letter of a code point is no short name, and no character has the name of another. -/
lemma names_unambiguous {name : Char} (hc : (c, name) ∈ shortNames) :
    name ≠ 'u' ∧ ∀ d, (d, name) ∈ shortNames → c = d := by
  have hletter : ∀ p ∈ shortNames, p.2 ≠ 'u' := by decide
  have hinjective : ∀ p ∈ shortNames, ∀ q ∈ shortNames, p.2 = q.2 → p.1 = q.1 := by decide
  exact ⟨hletter _ hc, fun d hd => hinjective _ hc _ hd rfl⟩

/-- The character is known from the way in which it stands inside quotes, whatever follows. -/
theorem append_inj (hc : EscapedAs c w) (hd : EscapedAs d x) (h : w ++ r = x ++ s) :
    c = d ∧ r = s := by
  cases hc with
  | itself hbackslash _ =>
    cases hd with
    | itself => exact List.cons.inj h
    | named => exact absurd (List.cons.inj h).1 hbackslash
    | spelled => exact absurd (List.cons.inj h).1 hbackslash
  | named hmem =>
    cases hd with
    | itself hbackslash _ => exact absurd (List.cons.inj h).1.symm hbackslash
    | named hmem' =>
      obtain ⟨rfl, hrest⟩ := List.cons.inj (List.cons.inj h).2
      exact ⟨(names_unambiguous hmem).2 _ hmem', hrest⟩
    | spelled => exact absurd (List.cons.inj (List.cons.inj h).2).1 (names_unambiguous hmem).1
  | spelled =>
    cases hd with
    | itself hbackslash _ => exact absurd (List.cons.inj h).1.symm hbackslash
    | named hmem' =>
      exact absurd (List.cons.inj (List.cons.inj h).2).1.symm (names_unambiguous hmem').1
    | spelled => exact codePoint_append_inj h

/-- The quote that ends a text is none of its characters. -/
lemma append_ne_quote (hc : EscapedAs c w) : w ++ r ≠ '"' :: s := by
  intro h
  cases hc with
  | itself _ hquote => exact hquote (List.cons.inj h).1
  | named => exact absurd (List.cons.inj h).1 (by decide)
  | spelled => exact absurd (List.cons.inj h).1 (by decide)

end EscapedAs

/-! ### Texts -/

lemma toList_quote (s : String) : (quote s).toList = '"' :: (s.toList.flatMap escape ++ ['"']) :=
  String.toList_ofList

lemma flatMap_escape_append_inj {cs ds r s : List Char}
    (h : cs.flatMap escape ++ '"' :: r = ds.flatMap escape ++ '"' :: s) : cs = ds ∧ r = s := by
  induction cs generalizing ds with
  | nil =>
    cases ds with
    | nil => exact ⟨rfl, (List.cons.inj h).2⟩
    | cons d ds =>
      rw [List.flatMap_cons, List.append_assoc] at h
      exact absurd h.symm (escapedAs_escape d).append_ne_quote
  | cons c cs ih =>
    rw [List.flatMap_cons, List.append_assoc] at h
    cases ds with
    | nil => exact absurd h (escapedAs_escape c).append_ne_quote
    | cons d ds =>
      rw [List.flatMap_cons, List.append_assoc] at h
      obtain ⟨rfl, hrest⟩ := (escapedAs_escape c).append_inj (escapedAs_escape d) h
      obtain ⟨rfl, hbehind⟩ := ih hrest
      exact ⟨rfl, hbehind⟩

/-- Quoted text determines the text and where it ends. -/
theorem quote_append_inj {s t : String} {r r' : List Char}
    (h : (quote s).toList ++ r = (quote t).toList ++ r') : s = t ∧ r = r' := by
  rw [toList_quote, toList_quote] at h
  have hinner : s.toList.flatMap escape ++ '"' :: r = t.toList.flatMap escape ++ '"' :: r' := by
    simpa using h
  obtain ⟨hchars, hrest⟩ := flatMap_escape_append_inj hinner
  exact ⟨String.toList_inj.1 hchars, hrest⟩

end Text
end FormLetter

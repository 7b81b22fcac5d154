/-
# Digits of a number

A number is determined by its digits (`toDigits_inj`), and they contain no character that is not the
digit of anything.  Both hold for every base that the digits suffice for.  The text of a whole
number has at most a minus sign in front of digits in base ten, and determines the number
(`toString_int_inj`).
-/
import Mathlib.Tactic.Common

namespace FormLetter
namespace Text

/-! ### Digits -/

variable {base : Nat}

lemma notMem_toDigits (hbase : 1 < base) {c : Char} (h : ∀ n, Nat.digitChar n ≠ c) (n : Nat) :
    c ∉ Nat.toDigits base n := by
  induction n using Nat.strongRecOn with
  | _ n ih =>
    rw [Nat.toDigits_eq_if hbase]
    split_ifs with hn
    · simpa using (h n).symm
    · have hrest := ih (n / base) (Nat.div_lt_self (by omega) hbase)
      simpa [hrest] using (h (n % base)).symm

lemma digitChar_inj {m n : Nat} (hm : m < 16) (hn : n < 16)
    (h : Nat.digitChar m = Nat.digitChar n) : m = n := by
  have hall : ∀ m : Fin 16, ∀ n : Fin 16, Nat.digitChar m = Nat.digitChar n → m = n := by decide
  exact congrArg Fin.val (hall ⟨m, hm⟩ ⟨n, hn⟩ h)

/-- A number is determined by its digits. -/
theorem toDigits_inj (hbase : 1 < base) (hbase' : base ≤ 16) {m n : Nat}
    (h : Nat.toDigits base m = Nat.toDigits base n) : m = n := by
  induction m using Nat.strongRecOn generalizing n with
  | _ m ih =>
    have hpos : ∀ k, 0 < (Nat.toDigits base k).length := fun k => Nat.length_toDigits_pos
    rw [Nat.toDigits_eq_if hbase, Nat.toDigits_eq_if hbase (n := n)] at h
    split_ifs at h with hm hn hn
    · exact digitChar_inj (by omega) (by omega) (List.singleton_inj.1 h)
    · have hlength := congrArg List.length h
      have := hpos (n / base)
      simp only [List.length_singleton, List.length_append] at hlength
      omega
    · have hlength := congrArg List.length h
      have := hpos (m / base)
      simp only [List.length_singleton, List.length_append] at hlength
      omega
    · -- the last digits agree, and so do the digits in front of them
      obtain ⟨hfront, hlast⟩ := List.append_inj' h rfl
      have hquotient : m / base = n / base :=
        ih (m / base) (Nat.div_lt_self (by omega) hbase) hfront
      have hrest : m % base = n % base := by
        have hm' := Nat.mod_lt m (by omega : 0 < base)
        have hn' := Nat.mod_lt n (by omega : 0 < base)
        exact digitChar_inj (by omega) (by omega) (List.singleton_inj.1 hlast)
      rw [← Nat.div_add_mod m base, hquotient, hrest, Nat.div_add_mod]

/-! ### Whole numbers -/

lemma isDigit_of_mem_repr {n : Nat} {c : Char} (h : c ∈ n.repr.toList) : c.isDigit = true := by
  rw [Nat.toList_repr] at h
  exact Nat.isDigit_of_mem_toDigits (by decide) (by decide) h

lemma mem_toList_toString {n : Int} {c : Char} (h : c ∈ (toString n).toList) :
    c.isDigit = true ∨ c = '-' := by
  rw [Int.toString_eq_repr, Int.repr_eq_if] at h
  split_ifs at h
  · exact Or.inl (isDigit_of_mem_repr h)
  · rw [String.toList_append] at h
    rcases List.mem_append.1 h with h | h
    · exact Or.inr (by simpa using h)
    · exact Or.inl (isDigit_of_mem_repr h)

lemma toString_int_ne_empty (n : Int) : toString n ≠ "" := by
  rw [Int.toString_eq_repr, Int.repr_eq_if]
  split_ifs
  · exact Nat.repr_ne_empty
  · intro h
    exact Nat.repr_ne_empty (String.append_eq_empty_iff.1 h).2

/-- A whole number is determined by its text. -/
theorem toString_int_inj {m n : Int} (h : toString m = toString n) : m = n := by
  have hdigits : ∀ {k l : Nat}, k.repr = l.repr → k = l := by
    intro k l hkl
    refine toDigits_inj (by decide : 1 < 10) (by decide) ?_
    rw [← Nat.toList_repr, hkl, Nat.toList_repr]
  -- a minus sign in front tells negative numbers from the others
  have hsign : ∀ {k l : Nat}, k.repr ≠ "-" ++ l.repr := by
    intro k l hkl
    have hminus : '-' ∈ k.repr.toList := by simp [hkl]
    exact absurd (isDigit_of_mem_repr hminus) (by decide)
  rw [Int.toString_eq_repr, Int.toString_eq_repr, Int.repr_eq_if, Int.repr_eq_if] at h
  split_ifs at h with hm hn hn
  · have hnat := hdigits h
    omega
  · exact absurd h hsign
  · exact absurd h.symm hsign
  · have hnat := hdigits ((String.append_right_inj "-").1 h)
    omega

end Text
end FormLetter

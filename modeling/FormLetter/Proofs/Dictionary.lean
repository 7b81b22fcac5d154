/-
# The order of the keys of a dictionary

The keys of a dictionary ascend strictly by their bytes, which is a total order of all keys.  To
insert a binding keeps the keys in this order (`Ascending.insert`), and a binding whose key comes
behind all others is inserted at the end (`insert_of_forall_before`).  A dictionary is given by its
bindings (`Ascending.ext`), so bindings of different keys may be inserted in any order
(`extend_perm`).
-/
import Mathlib.Tactic.Common
import FormLetter.Dictionary

namespace FormLetter
namespace Dictionary

variable {α : Type} {d : Dictionary α} {key : String} {value : α}

/-! ### Which key comes before the other -/

lemma utf8_injective : Function.Injective utf8 := by
  intro s t h
  refine String.toByteArray_inj.1 (ByteArray.ext (Array.toList_inj.1 ?_))
  simpa only [utf8, String.toUTF8_eq_toByteArray] using h

lemma before_irrefl (k : String) : before k k = false := by
  simp [before]

lemma before_trans {k l m : String} (hkl : before k l = true) (hlm : before l m = true) :
    before k m = true := by
  simp only [before, decide_eq_true_eq] at hkl hlm ⊢
  exact List.lt_trans hkl hlm

lemma not_before_of_before {k l : String} (h : before k l = true) : before l k = false := by
  simp only [before, decide_eq_true_eq, decide_eq_false_iff_not] at h ⊢
  exact List.lt_asymm h

/-- Of two keys one comes before the other. -/
lemma before_of_not_before {k l : String} (hne : k ≠ l) (h : before k l = false) :
    before l k = true := by
  simp only [before, decide_eq_true_eq, decide_eq_false_iff_not] at h ⊢
  by_contra hlk
  exact hne (utf8_injective (List.le_antisymm (List.not_lt.1 hlk) (List.not_lt.1 h)))

/-! ### Insertion -/

lemma mem_insert {entry : String × α} (h : entry ∈ insert key value d) :
    entry = (key, value) ∨ entry ∈ d := by
  induction d with
  | nil => simpa [insert] using h
  | cons first entries ih =>
    obtain ⟨k, v⟩ := first
    rw [insert] at h
    split_ifs at h
    · exact (List.mem_cons.1 h).imp_right (List.mem_cons_of_mem _)
    · exact List.mem_cons.1 h
    · rcases List.mem_cons.1 h with rfl | h
      · exact Or.inr List.mem_cons_self
      · exact (ih h).imp_right (List.mem_cons_of_mem _)

lemma mem_keys_insert {k : String} (h : k ∈ keys (insert key value d)) : k = key ∨ k ∈ keys d := by
  obtain ⟨entry, hentry, rfl⟩ := List.mem_map.1 h
  rcases mem_insert hentry with rfl | hentry
  · exact Or.inl rfl
  · exact Or.inr (List.mem_map_of_mem hentry)

lemma ascending_empty : Ascending (empty : Dictionary α) := List.Pairwise.nil

lemma ascending_cons {entry : String × α} {entries : Dictionary α} :
    Ascending (entry :: entries) ↔
      (∀ k ∈ keys entries, before entry.1 k = true) ∧ Ascending entries := by
  rw [Ascending, keys, List.map_cons, List.pairwise_cons]
  rfl

/-- To insert a binding keeps the keys in their order. -/
theorem Ascending.insert (h : Ascending d) (key : String) (value : α) :
    Ascending (insert key value d) := by
  induction d with
  | nil => exact ascending_cons.2 ⟨by simp [keys], h⟩
  | cons first entries ih =>
    obtain ⟨k, v⟩ := first
    obtain ⟨hfirst, hrest⟩ := ascending_cons.1 h
    rw [Dictionary.insert]
    split_ifs with heq hbefore
    · subst heq
      exact ascending_cons.2 ⟨hfirst, hrest⟩
    · refine ascending_cons.2 ⟨fun l hl => ?_, h⟩
      rcases List.mem_cons.1 hl with rfl | hl
      · exact hbefore
      · exact before_trans hbefore (hfirst l hl)
    · refine ascending_cons.2 ⟨fun l hl => ?_, ih hrest⟩
      rcases mem_keys_insert hl with rfl | hl
      · exact before_of_not_before (Ne.symm heq) (by simpa using hbefore)
      · exact hfirst l hl

/-- A binding whose key comes behind all others is inserted at the end. -/
theorem insert_of_forall_before (h : ∀ k ∈ keys d, before k key = true) :
    insert key value d = d ++ [(key, value)] := by
  induction d with
  | nil => rfl
  | cons first entries ih =>
    obtain ⟨k, v⟩ := first
    have hk : before k key = true := h k (by simp [keys])
    have hne : k ≠ key := by
      rintro rfl
      simp [before_irrefl] at hk
    rw [insert, if_neg hne, if_neg (by simp [not_before_of_before hk]),
      ih fun l hl => h l (List.mem_cons_of_mem _ hl), List.cons_append]

/-! ### What a key is bound to -/

lemma get?_eq_none (h : key ∉ keys d) : get? key d = none := by
  induction d with
  | nil => rfl
  | cons entry entries ih =>
    obtain ⟨hkey, hentries⟩ := not_or.1 (List.mem_cons.not.1 h)
    rw [get?, if_neg (Ne.symm hkey), ih hentries]

/-- The entries of a dictionary are what its keys are bound to. -/
lemma Ascending.get?_eq_some_iff (h : Ascending d) :
    get? key d = some value ↔ (key, value) ∈ d := by
  induction d with
  | nil => simp [get?]
  | cons entry entries ih =>
    obtain ⟨k, v⟩ := entry
    obtain ⟨hfirst, hrest⟩ := ascending_cons.1 h
    rw [get?, List.mem_cons, Prod.mk.injEq]
    by_cases hk : k = key
    · subst hk
      have hnot : (k, value) ∉ entries := by
        intro hmem
        have hbefore := hfirst k (List.mem_map_of_mem hmem)
        simp [before_irrefl] at hbefore
      simp [hnot, eq_comm]
    · rw [if_neg hk, ih hrest]
      simp [Ne.symm hk]

/-- A dictionary is determined by what its keys are bound to. -/
theorem Ascending.ext {d e : Dictionary α} (hd : Ascending d) (he : Ascending e)
    (h : ∀ key, get? key d = get? key e) : d = e := by
  have hmem : ∀ entry, entry ∈ d ↔ entry ∈ e := by
    rintro ⟨k, v⟩
    rw [← hd.get?_eq_some_iff, ← he.get?_eq_some_iff, h k]
  have hpairwise : ∀ {d : Dictionary α}, Ascending d →
      d.Pairwise fun a b => before a.1 b.1 = true := fun h => List.pairwise_map.1 h
  have hnodup : ∀ {d : Dictionary α}, Ascending d → d.Nodup := by
    intro d hd
    refine (hpairwise hd).imp ?_
    rintro a _ hab rfl
    simp [before_irrefl] at hab
  refine List.Perm.eq_of_pairwise ?_ (hpairwise hd) (hpairwise he)
    ((List.perm_ext_iff_of_nodup (hnodup hd) (hnodup he)).2 hmem)
  intro a b _ _ hab hba
  rw [not_before_of_before hab] at hba
  cases hba

/-! ### More bindings -/

variable {bindings bindings' : List (String × α)}

/-- The dictionary with more bindings.  Of two bindings of one key the later one counts. -/
def extend (bindings : List (String × α)) (d : Dictionary α) : Dictionary α :=
  bindings.foldl (fun d (key, value) => insert key value d) d

lemma get?_extend_of_notMem (h : key ∉ keys bindings) :
    get? key (extend bindings d) = get? key d := by
  induction bindings generalizing d with
  | nil => rfl
  | cons binding bindings ih =>
    obtain ⟨hkey, hbindings⟩ := not_or.1 (List.mem_cons.not.1 h)
    exact (ih hbindings).trans (by rw [get?_insert, if_neg (Ne.symm hkey)])

lemma get?_extend_of_mem (hnodup : (keys bindings).Nodup) (h : (key, value) ∈ bindings) :
    get? key (extend bindings d) = some value := by
  induction bindings generalizing d with
  | nil => exact absurd h List.not_mem_nil
  | cons binding bindings ih =>
    obtain ⟨hfirst, hrest⟩ := List.nodup_cons.1 hnodup
    rcases List.mem_cons.1 h with rfl | h
    · exact (get?_extend_of_notMem hfirst).trans (by rw [get?_insert, if_pos rfl])
    · exact ih hrest h

theorem Ascending.extend (h : Ascending d) (bindings : List (String × α)) :
    Ascending (extend bindings d) := by
  induction bindings generalizing d with
  | nil => exact h
  | cons binding bindings ih => exact ih (h.insert binding.1 binding.2)

/-- The order of bindings of different keys makes no difference. -/
theorem extend_perm (h : Ascending d) (hperm : bindings.Perm bindings')
    (hdistinct : (keys bindings).Nodup) : extend bindings d = extend bindings' d := by
  have hkeys : (keys bindings).Perm (keys bindings') := hperm.map Prod.fst
  refine (h.extend bindings).ext (h.extend bindings') fun key => ?_
  by_cases hkey : key ∈ keys bindings
  · obtain ⟨⟨k, v⟩, hmem, rfl⟩ := List.mem_map.1 hkey
    rw [get?_extend_of_mem hdistinct hmem,
      get?_extend_of_mem (hkeys.nodup_iff.1 hdistinct) (hperm.mem_iff.1 hmem)]
  · rw [get?_extend_of_notMem hkey, get?_extend_of_notMem (hkeys.mem_iff.not.1 hkey)]

end Dictionary
end FormLetter

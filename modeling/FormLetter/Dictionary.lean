/-
# Dictionaries

A dictionary binds each of its keys to one value.  It is the list of its entries, in ascending order
of the UTF-8 bytes of the keys, so that two dictionaries with the same bindings are equal and all
output over a dictionary comes in one order.  `insert` and `erase` keep that order.
-/

namespace FormLetter

/-- The UTF-8 bytes of a text. -/
def utf8 (s : String) : List UInt8 := s.toUTF8.data.toList

/-- A dictionary, given by its entries in ascending order of their keys. -/
abbrev Dictionary (α : Type) := List (String × α)

namespace Dictionary

variable {α : Type}

/-- Does one key come before the other? -/
def before (k l : String) : Bool := decide (utf8 k < utf8 l)

/-- The dictionary without any entry. -/
def empty : Dictionary α := []

/-- The value that a key is bound to. -/
def get? (key : String) : Dictionary α → Option α
  | [] => none
  | (k, v) :: entries => if k = key then some v else get? key entries

/-- The dictionary in which `key` is bound to `value`, whatever it was bound to. -/
def insert (key : String) (value : α) : Dictionary α → Dictionary α
  | [] => [(key, value)]
  | (k, v) :: entries =>
    if k = key then (key, value) :: entries
    else if before key k then (key, value) :: (k, v) :: entries
    else (k, v) :: insert key value entries

/-- The dictionary of the given bindings.  Of two bindings of one key the later one counts. -/
def ofList (bindings : List (String × α)) : Dictionary α :=
  bindings.foldl (fun d (key, value) => insert key value d) empty

/-- The dictionary in which `key` is not bound. -/
def erase (key : String) : Dictionary α → Dictionary α
  | [] => []
  | (k, v) :: entries => if k = key then erase key entries else (k, v) :: erase key entries

/-- The keys, in their order. -/
def keys (d : Dictionary α) : List String := d.map Prod.fst

/-- The keys ascend strictly. -/
def Ascending (d : Dictionary α) : Prop := d.keys.Pairwise (before · ·)

/-! ### What a key is bound to -/

theorem get?_insert (key other : String) (value : α) (d : Dictionary α) :
    get? other (insert key value d) = if key = other then some value else get? other d := by
  induction d with
  | nil => simp [insert, get?]
  | cons entry entries ih =>
    obtain ⟨k, v⟩ := entry
    by_cases hk : k = key
    · subst hk
      by_cases ho : k = other <;> simp [insert, get?, ho]
    · by_cases hb : before key k = true
      · simp [insert, get?, hk, hb]
      · by_cases ho : k = other
        · subst ho
          simp [insert, get?, hk, hb, Ne.symm hk]
        · simp [insert, get?, hk, hb, ho, ih]

theorem get?_erase (key other : String) (d : Dictionary α) :
    get? other (erase key d) = if key = other then none else get? other d := by
  induction d with
  | nil => simp [erase, get?]
  | cons entry entries ih =>
    obtain ⟨k, v⟩ := entry
    by_cases hk : k = key
    · subst hk
      by_cases ho : k = other
      · subst ho
        simpa [erase] using ih
      · simpa [erase, get?, ho] using ih
    · by_cases ho : k = other
      · subst ho
        simp [erase, get?, hk, Ne.symm hk]
      · simp [erase, get?, hk, ho, ih]

end Dictionary
end FormLetter

/-
# The lines of a markdown text

A markdown text can be read one line at a time.  A line ends at a line feed, alone or behind a
carriage return, and how it starts tells what it is: a heading, a list item, or text, unless there is
nothing on it.  The tokens of the text are those of its lines, with a line break between any two of
them (`ofText_eq_lines`), although they are read character by character and a marker is told only by
what comes behind it.
-/
import FormLetter.Markdown.Token
import Mathlib.Data.List.Basic

namespace FormLetter
namespace Markdown

/-- What a line of a markdown text is. -/
inductive Line where
  /-- A heading: the number of `#` behind the first one, and what follows the space. -/
  | heading (further : Nat) (title : List Char)
  /-- A list item: what follows its marker. -/
  | item (words : List Char)
  /-- A line without any character. -/
  | blank
  /-- Any other line, by its first character and the rest. -/
  | text (first : Char) (rest : List Char)
deriving DecidableEq

namespace Line

/-- The pieces of a text between its line ends. -/
def cut : List Char → List (List Char)
  | [] => [[]]
  | '\n' :: cs => [] :: cut cs
  | '\r' :: '\n' :: cs => [] :: cut cs
  | c :: cs => (cut cs).modifyHead (c :: ·)

/-- The number of `#` at the start of a text and what is behind the space that follows them, if one
does. -/
def marker? : List Char → Option (Nat × List Char)
  | ' ' :: cs => some (0, cs)
  | '#' :: cs => (marker? cs).map fun (further, title) => (further + 1, title)
  | _ => none

/-- The line of the given characters. -/
def ofChars : List Char → Line
  | [] => blank
  | '*' :: ' ' :: words => item words
  | '#' :: cs =>
    match marker? cs with
    | some (further, title) => heading further title
    | none => text '#' cs
  | c :: cs => text c cs

/-- The lines of a text. -/
def ofText (text : String) : List Line := (cut text.toList).map ofChars

/-- The tokens of a line. -/
def tokens : Line → List Token
  | heading further title => List.replicate (further + 1) Token.heading ++ title.map Token.letter
  | item words => Token.item :: words.map Token.letter
  | blank => []
  | text first rest => (first :: rest).map Token.letter

/-- The tokens of lines that come behind another one. -/
def tokensBehind (lines : List Line) : List Token :=
  lines.flatMap fun line => Token.lineBreak :: line.tokens

/-! ### Markers -/

/-- A marker is a run of `#` and a space. -/
theorem marker?_eq_some_iff {cs : List Char} {further : Nat} {title : List Char} :
    marker? cs = some (further, title) ↔ cs = List.replicate further '#' ++ ' ' :: title := by
  induction cs generalizing further with
  | nil => simp [marker?]
  | cons c cs ih =>
    cases further with
    | zero =>
      by_cases hspace : c = ' '
      · simp [hspace, marker?]
      · by_cases hmark : c = '#' <;> simp [marker?, hspace, hmark]
    | succ further =>
      by_cases hmark : c = '#'
      · simp [hmark, marker?, ih, List.replicate_succ]
      · by_cases hspace : c = ' ' <;> simp [marker?, hspace, hmark, List.replicate_succ]

lemma continuesMarker_eq (cs : List Char) : continuesMarker cs = (marker? cs).isSome := by
  induction cs with
  | nil => rfl
  | cons c cs ih =>
    by_cases hmark : c = '#'
    · simpa [continuesMarker, marker?, hmark] using ih
    · by_cases hspace : c = ' ' <;> simp [continuesMarker, marker?, hspace, hmark]

/-! ### Cutting a text -/

/-- The text `cs` starts with a line, and `ending` is what stands behind it. -/
structure Starts (cs line ending : List Char) : Prop where
  eq_append : cs = line ++ ending
  feed_notMem : '\n' ∉ line
  head_ending : ∀ c ∈ ending.head?, c = '\n' ∨ c = '\r'

lemma cut_cons {c : Char} {cs : List Char} (hfeed : c = '\n' → False)
    (hreturn : ∀ ds, c = '\r' → cs = '\n' :: ds → False) :
    cut (c :: cs) = (cut cs).modifyHead (c :: ·) := by
  rw [cut] <;> assumption

/-- A text starts with the first one of its lines. -/
lemma exists_cut (cs : List Char) :
    ∃ line rest ending, cut cs = line :: rest ∧ Starts cs line ending := by
  fun_induction cut cs with
  | case1 => exact ⟨[], [], [], rfl, rfl, by simp, by simp⟩
  | case2 cs ih => exact ⟨[], _, '\n' :: cs, rfl, rfl, by simp, by simp⟩
  | case3 cs ih => exact ⟨[], _, '\r' :: '\n' :: cs, rfl, rfl, by simp, by simp⟩
  | case4 c cs hfeed hreturn ih =>
    obtain ⟨line, rest, ending, hcut, rfl, hline, hending⟩ := ih
    refine ⟨c :: line, rest, ending, by simp [hcut], rfl, ?_, hending⟩
    simpa [hline] using Ne.symm hfeed

lemma feed_notMem_of_mem_cut {cs line : List Char} (h : line ∈ cut cs) : '\n' ∉ line := by
  fun_induction cut cs generalizing line with
  | case1 => simp_all
  | case2 cs ih => rcases List.mem_cons.1 h with rfl | h <;> simp_all
  | case3 cs ih => rcases List.mem_cons.1 h with rfl | h <;> simp_all
  | case4 c cs hfeed hreturn ih =>
    obtain ⟨first, rest, ending, hcut, -⟩ := exists_cut cs
    rw [hcut, List.modifyHead_cons] at h
    rcases List.mem_cons.1 h with rfl | h
    · simpa using ⟨Ne.symm hfeed, ih (by simp [hcut])⟩
    · exact ih (by simp [hcut, h])

section

variable {cs line ending : List Char}

lemma Starts.head?_eq_some_iff (h : Starts cs line ending) {c : Char} (hfeed : c ≠ '\n')
    (hreturn : c ≠ '\r') : cs.head? = some c ↔ line.head? = some c := by
  rw [h.eq_append]
  cases line with
  | cons d line => simp
  | nil =>
    refine ⟨fun hc => ?_, by simp⟩
    rcases h.head_ending c (by simpa using hc) with rfl | rfl
    · exact absurd rfl hfeed
    · exact absurd rfl hreturn

/-- Whether a marker goes on is seen from its line. -/
lemma Starts.continuesMarker (h : Starts cs line ending) :
    Markdown.continuesMarker cs = Markdown.continuesMarker line := by
  obtain ⟨rfl, -, hending⟩ := h
  induction line with
  | nil =>
    cases ending with
    | nil => rfl
    | cons c ending => rcases hending c (by simp) with rfl | rfl <;> rfl
  | cons c line ih =>
    by_cases hmark : c = '#'
    · simpa [Markdown.continuesMarker, hmark] using ih
    · simp [Markdown.continuesMarker, hmark]

end

end Line

/-! ### Reading a line -/

namespace Token

open Line

variable {place : Place} {c : Char} {cs : List Char}

/-- A character that neither ends a line nor belongs to a marker is a letter. -/
lemma read_letter (hfeed : c ≠ '\n') (hreturn : c = '\r' → cs.head? ≠ some '\n')
    (hitem : place = .lineStart → c = '*' → cs.head? ≠ some ' ')
    (hmark : c = '#' → place ≠ .inLine → continuesMarker cs = false) :
    read place (c :: cs) = letter c :: read .inLine cs := by
  by_cases hspace : c = '#' ∧ cs.head? = some ' '
  · obtain ⟨rfl, hspace⟩ := hspace
    obtain ⟨cs, rfl⟩ := List.head?_eq_some_iff.1 hspace
    -- only within a line can the two characters be read, since elsewhere they are a marker
    have hplace : place = .inLine := by
      by_contra hplace
      simpa [continuesMarker] using hmark rfl hplace
    have hletter : read .inLine (' ' :: cs) = letter ' ' :: read .inLine cs := by
      rw [read] <;> simp
    rw [hletter, hplace]
    simp [read]
  · rw [read, if_neg]
    · rintro ⟨rfl, hplace, hcontinues⟩
      simp [hmark rfl hplace] at hcontinues
    · exact hfeed
    · rintro ds hc rfl
      exact hreturn hc rfl
    · rintro ds hc rfl
      exact hspace ⟨hc, rfl⟩
    · rintro ds hplace hc rfl
      exact hitem hplace hc rfl

/-- One `#` of a marker that another one follows. -/
lemma read_mark (hplace : place ≠ .inLine) (hspace : cs.head? ≠ some ' ')
    (hcontinues : continuesMarker cs = true) :
    read place ('#' :: cs) = heading :: read .marker cs := by
  rw [read, if_pos ⟨rfl, hplace, hcontinues⟩]
  · simp
  · simp
  · rintro ds - rfl
    exact hspace rfl
  · simp

lemma read_inLine (hfeed : '\n' ∉ cs) : read .inLine cs = cs.map letter := by
  induction cs with
  | nil => simp [read]
  | cons c cs ih =>
    simp only [List.mem_cons, not_or] at hfeed
    rw [read_letter (Ne.symm hfeed.1) _ (by simp) (by simp), ih hfeed.2, List.map_cons]
    exact fun _ hhead => hfeed.2 (List.mem_of_mem_head? hhead)

/-- The marker of a heading. -/
lemma read_marker (hplace : place ≠ .inLine) (further : Nat) (cs : List Char) :
    read place ('#' :: (List.replicate further '#' ++ ' ' :: cs)) =
      List.replicate (further + 1) heading ++ read .inLine cs := by
  induction further generalizing place with
  | zero => simp [read, hplace]
  | succ further ih =>
    have hcontinues : continuesMarker (List.replicate (further + 1) '#' ++ ' ' :: cs) = true := by
      rw [continuesMarker_eq, marker?_eq_some_iff.2 rfl]
      rfl
    rw [read_mark hplace (by simp [List.replicate_succ]) hcontinues, List.replicate_succ,
      List.cons_append, ih (by simp)]
    rfl

/-- The tokens of a text without line ends. -/
theorem read_ofChars {line : List Char} (hfeed : '\n' ∉ line) :
    read .lineStart line = (ofChars line).tokens := by
  have hreturn : ∀ {d : Char} {ds : List Char}, '\n' ∉ d :: ds → d ≠ '\n' ∧ ds.head? ≠ some '\n' :=
    fun h => ⟨fun hd => h (by simp [hd]), fun hd => h (by simp [List.mem_of_mem_head? hd])⟩
  fun_cases ofChars line with
  | case1 => simp [read, tokens]
  | case2 words =>
    have hwords : '\n' ∉ words := fun h => hfeed (by simp [h])
    simp [read, tokens, read_inLine hwords]
  | case3 cs further title hmarker =>
    obtain rfl := marker?_eq_some_iff.1 hmarker
    have htitle : '\n' ∉ title := fun h => hfeed (by simp [h])
    rw [read_marker (by simp), read_inLine htitle, tokens]
  | case4 cs hmarker =>
    obtain ⟨hmark, hhead⟩ := hreturn hfeed
    rw [read_letter hmark (fun _ => hhead) (by simp)
      (fun _ _ => by rw [continuesMarker_eq, hmarker]; rfl), read_inLine fun h => hfeed (by simp [h])]
    rfl
  | case5 c cs hitem hmark =>
    obtain ⟨hc, hhead⟩ := hreturn hfeed
    rw [read_letter hc (fun _ => hhead), read_inLine fun h => hfeed (by simp [h])]
    · rfl
    · intro _ hstar hspace
      obtain ⟨ds, rfl⟩ := List.head?_eq_some_iff.1 hspace
      exact hitem _ hstar rfl
    · exact fun h => absurd h hmark

/-- The first line of a text is read where the text is, and each other one at the start of a line. -/
theorem read_of_cut (place : Place) (cs : List Char) {line : List Char} {rest : List (List Char)}
    (hcut : cut cs = line :: rest) :
    read place cs = read place line ++ rest.flatMap fun l => lineBreak :: read .lineStart l := by
  fun_induction read place cs generalizing line rest with
  | case1 place =>
    obtain ⟨rfl, rfl⟩ := List.cons_eq_cons.1 hcut
    simp [read]
  | case2 place cs ih =>
    obtain ⟨first, rest', ending, hcs, -⟩ := exists_cut cs
    obtain ⟨rfl, rfl⟩ := List.cons_eq_cons.1 hcut
    simp [read, hcs, ih hcs]
  | case3 place cs ih =>
    obtain ⟨first, rest', ending, hcs, -⟩ := exists_cut cs
    obtain ⟨rfl, rfl⟩ := List.cons_eq_cons.1 hcut
    simp [read, hcs, ih hcs]
  | case4 cs ih =>
    obtain ⟨first, rest', ending, hcs, -⟩ := exists_cut cs
    obtain ⟨rfl, rfl⟩ : '*' :: ' ' :: first = line ∧ rest' = rest := by simpa [cut, hcs] using hcut
    simp [read, ih hcs]
  | case5 cs ih =>
    obtain ⟨first, rest', ending, hcs, -⟩ := exists_cut cs
    obtain ⟨rfl, rfl⟩ : '#' :: ' ' :: first = line ∧ rest' = rest := by simpa [cut, hcs] using hcut
    simp [read, ih hcs]
  | case6 place cs hplace ih =>
    obtain ⟨first, rest', ending, hcs, -⟩ := exists_cut cs
    obtain ⟨rfl, rfl⟩ : '#' :: ' ' :: first = line ∧ rest' = rest := by simpa [cut, hcs] using hcut
    simp [read, ih hcs, hplace]
  | case7 place c cs hfeed hreturn hitem hspace hmark ih =>
    obtain ⟨first, rest', ending, hcs, hstarts⟩ := exists_cut cs
    rw [cut_cons hfeed hreturn, hcs] at hcut
    obtain ⟨rfl, rfl⟩ := List.cons_eq_cons.1 hcut
    obtain ⟨rfl, hplace, hcontinues⟩ := hmark
    -- the marker is on the line as a whole, so the line alone is read alike
    have hhead : first.head? ≠ some ' ' := by
      rw [Ne, ← hstarts.head?_eq_some_iff (by decide) (by decide)]
      exact fun h => (List.head?_eq_some_iff.1 h).elim fun ds hds => hspace ds rfl hds
    rw [read_mark hplace hhead (hstarts.continuesMarker ▸ hcontinues), ih hcs, List.cons_append]
  | case8 place c cs hfeed hreturn hitem hspace hmark ih =>
    obtain ⟨first, rest', ending, hcs, hstarts⟩ := exists_cut cs
    rw [cut_cons hfeed hreturn, hcs] at hcut
    obtain ⟨rfl, rfl⟩ := List.cons_eq_cons.1 hcut
    have hfirst : first.head? ≠ some '\n' := fun h => hstarts.feed_notMem (List.mem_of_mem_head? h)
    rw [read_letter hfeed (fun _ => hfirst), ih hcs, List.cons_append]
    · intro hplace hstar h
      rw [← hstarts.head?_eq_some_iff (by decide) (by decide)] at h
      exact (List.head?_eq_some_iff.1 h).elim fun ds hds => hitem ds hplace hstar hds
    · intro hc hplace
      rw [← hstarts.continuesMarker]
      simpa [hc, hplace] using hmark

/-- **Lines.**  The tokens of a text are those of its lines, with a line break between any two. -/
theorem ofText_eq_lines (text : String) {line : Line} {lines : List Line}
    (h : Line.ofText text = line :: lines) : ofText text = line.tokens ++ tokensBehind lines := by
  obtain ⟨first, rest, ending, hcut, hstarts⟩ := exists_cut text.toList
  rw [Line.ofText, hcut, List.map_cons] at h
  obtain ⟨rfl, rfl⟩ := List.cons_eq_cons.1 h
  rw [ofText, read_of_cut .lineStart _ hcut, read_ofChars hstarts.feed_notMem, tokensBehind,
    List.flatMap_map]
  congr 1
  refine List.flatMap_congr fun l hl => ?_
  rw [read_ofChars (feed_notMem_of_mem_cut (by rw [hcut]; exact List.mem_cons_of_mem _ hl))]

end Token
end Markdown
end FormLetter

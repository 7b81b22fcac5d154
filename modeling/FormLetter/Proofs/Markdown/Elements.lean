/-
# Rows of elements

A page is made of the elements of a row of blocks, one to a line.  A block is put in front of the
elements of the blocks behind it (`ofBlocks_cons`), and for two rows of blocks the elements are those
of the one and then those of the other, except that a list at the end of the first row goes on with a
list at the start of the second one (`ofBlocks_append`).  The elements give back the blocks that they
are made of (`flatMap_blocks_ofBlocks`).

So the page of two rows of blocks is the one page below the other, or, where two items meet, the two
pages without the tags and the line end between them (`html_append_of_apart`,
`html_append_of_items`).
-/
import FormLetter.Markdown.Block
import FormLetter.Proofs.Joined

namespace FormLetter
namespace Markdown

namespace Block

/-- Is the block a list item? -/
def isItem : Block → Bool
  | item _ => true
  | heading _ _ => false
  | paragraph _ => false

lemma isItem_eq_true_iff {b : Block} : b.isItem = true ↔ ∃ text, b = .item text := by
  cases b <;> simp [isItem]

lemma map_isItem_eq_some_true_iff {b : Option Block} :
    b.map isItem = some true ↔ ∃ text, b = some (.item text) := by
  cases b <;> simp [isItem_eq_true_iff]

end Block

/-! ### Elements -/

namespace Element

/-- The blocks that the element is made of. -/
def blocks : Element → List Block
  | heading level text => [.heading level text]
  | paragraph text => [.paragraph text]
  | list items => items.map .item

/-- What the tags of the element say. -/
def name : Element → String
  | heading level _ => "h" ++ toString level
  | paragraph _ => "p"
  | list _ => "ul"

/-- What stands between the tags of the element. -/
def inner : Element → String
  | heading _ text => text
  | paragraph text => text
  | list items => Text.joined "" (items.map (wrap "li"))

lemma html_eq_wrap (e : Element) : e.html = wrap e.name e.inner := by
  cases e <;> rfl

/-- Is the element a list? -/
def isList : Element → Bool
  | list _ => true
  | heading _ _ => false
  | paragraph _ => false

/-- Two rows of elements as one row.  A list at the end of the first row goes on with a list at the
start of the second one. -/
def fuse : List Element → List Element → List Element
  | [], fs => fs
  | [list items], list items' :: fs => list (items ++ items') :: fs
  | e :: es, fs => e :: fuse es fs

/-- The elements of a block with others behind it. -/
def prepend : Block → List Element → List Element
  | .heading level text, es => heading level text :: es
  | .paragraph text, es => paragraph text :: es
  | .item text, list items :: es => list (text :: items) :: es
  | .item text, es => list [text] :: es

lemma ofBlocks_cons (b : Block) (bs : List Block) : ofBlocks (b :: bs) = prepend b (ofBlocks bs) := by
  cases b with
  | heading level text => rfl
  | paragraph text => rfl
  | item text =>
    rw [ofBlocks]
    cases ofBlocks bs with
    | nil => rfl
    | cons e es => cases e <;> rfl

/-- The elements are made of the blocks, in their order. -/
theorem flatMap_blocks_ofBlocks (bs : List Block) : (ofBlocks bs).flatMap blocks = bs := by
  have hprepend (b : Block) (es : List Element) :
      (prepend b es).flatMap blocks = b :: es.flatMap blocks := by
    cases b with
    | heading level text => rfl
    | paragraph text => rfl
    | item text => rcases es with _ | ⟨_ | _ | _, es⟩ <;> rfl
  induction bs with
  | nil => rfl
  | cons b bs ih => rw [ofBlocks_cons, hprepend, ih]

lemma fuse_cons_of_ne_nil (e : Element) {es : List Element} (h : es ≠ []) (fs : List Element) :
    fuse (e :: es) fs = e :: fuse es fs := by
  cases es with
  | nil => exact absurd rfl h
  | cons e' es => cases e <;> rfl

lemma prepend_fuse (b : Block) (es fs : List Element) :
    prepend b (fuse es fs) = fuse (prepend b es) fs := by
  cases b with
  | heading level text => cases es <;> rfl
  | paragraph text => cases es <;> rfl
  | item text =>
    rcases es with _ | ⟨e, _ | ⟨e', es⟩⟩
    · rcases fs with _ | ⟨_ | _ | _, fs⟩ <;> rfl
    · cases e with
      | heading level text => rfl
      | paragraph text => rfl
      | list items => rcases fs with _ | ⟨_ | _ | _, fs⟩ <;> rfl
    · cases e <;> rfl

/-- The elements of two rows of blocks. -/
theorem ofBlocks_append (bs cs : List Block) :
    ofBlocks (bs ++ cs) = fuse (ofBlocks bs) (ofBlocks cs) := by
  induction bs with
  | nil => rfl
  | cons b bs ih => rw [List.cons_append, ofBlocks_cons, ih, prepend_fuse, ofBlocks_cons]

lemma head?_prepend (b : Block) (es : List Element) :
    (prepend b es).head?.map isList = some b.isItem := by
  cases b with
  | heading level text => rfl
  | paragraph text => rfl
  | item text => rcases es with _ | ⟨_ | _ | _, es⟩ <;> rfl

lemma getLast?_prepend (b : Block) (es : List Element) :
    (prepend b es).getLast?.map isList = some ((es.getLast?.map isList).getD b.isItem) := by
  have hcons (e : Element) (he : e.isList = b.isItem) :
      (e :: es).getLast?.map isList = some ((es.getLast?.map isList).getD b.isItem) := by
    rw [List.getLast?_cons, ← he]
    cases es.getLast? <;> rfl
  cases b with
  | heading level text => exact hcons _ rfl
  | paragraph text => exact hcons _ rfl
  | item text =>
    rcases es with _ | ⟨_ | _ | items, es⟩
    · rfl
    · exact hcons _ rfl
    · exact hcons _ rfl
    · -- the list takes the item in
      rw [prepend, List.getLast?_cons, List.getLast?_cons]
      cases es.getLast? <;> rfl

/-- The first element is a list if the first block is an item. -/
lemma head?_ofBlocks (bs : List Block) :
    (ofBlocks bs).head?.map isList = bs.head?.map Block.isItem := by
  cases bs with
  | nil => rfl
  | cons b bs => rw [ofBlocks_cons, head?_prepend, List.head?_cons, Option.map_some]

/-- The last element is a list if the last block is an item. -/
lemma getLast?_ofBlocks (bs : List Block) :
    (ofBlocks bs).getLast?.map isList = bs.getLast?.map Block.isItem := by
  induction bs with
  | nil => rfl
  | cons b bs ih =>
    rw [ofBlocks_cons, getLast?_prepend, ih, List.getLast?_cons]
    cases bs.getLast? <;> rfl

lemma ofBlocks_ne_nil {bs : List Block} (h : bs ≠ []) : ofBlocks bs ≠ [] := by
  intro hnil
  have hhead := head?_ofBlocks bs
  rw [hnil, List.head?_nil, Option.map_none, eq_comm, Option.map_eq_none_iff,
    List.head?_eq_none_iff] at hhead
  exact h hhead

/-- Only where two lists meet are rows of elements more than put one behind the other. -/
lemma fuse_eq_append {es fs : List Element}
    (h : ¬ (es.getLast?.map isList = some true ∧ fs.head?.map isList = some true)) :
    fuse es fs = es ++ fs := by
  induction es with
  | nil => rfl
  | cons e es ih =>
    by_cases hes : es = []
    · subst hes
      rcases e with _ | _ | items
      · rfl
      · rfl
      · rcases fs with _ | ⟨_ | _ | _, fs⟩
        · rfl
        · rfl
        · rfl
        · exact absurd ⟨rfl, rfl⟩ h
    · rw [fuse_cons_of_ne_nil e hes, ih, List.cons_append]
      obtain ⟨e', es', rfl⟩ := List.exists_cons_of_ne_nil hes
      rwa [List.getLast?_cons_cons] at h

lemma fuse_lists (es : List Element) (items items' : List String) (fs : List Element) :
    fuse (es ++ [list items]) (list items' :: fs) = es ++ list (items ++ items') :: fs := by
  induction es with
  | nil => rfl
  | cons e es ih => rw [List.cons_append, fuse_cons_of_ne_nil e (by simp), ih, List.cons_append]

lemma exists_list_of_isList {e : Element} (h : e.isList = true) : ∃ items, e = list items := by
  cases e with
  | heading level text => simp [isList] at h
  | paragraph text => simp [isList] at h
  | list items => exact ⟨items, rfl⟩

lemma exists_append_list {es : List Element} (h : es.getLast?.map isList = some true) :
    ∃ es' items, es = es' ++ [list items] := by
  obtain ⟨e, hlast, he⟩ := Option.map_eq_some_iff.1 h
  obtain ⟨es', rfl⟩ := List.getLast?_eq_some_iff.1 hlast
  obtain ⟨items, rfl⟩ := exists_list_of_isList he
  exact ⟨es', items, rfl⟩

lemma exists_list_cons {es : List Element} (h : es.head?.map isList = some true) :
    ∃ items es', es = list items :: es' := by
  obtain ⟨e, hhead, he⟩ := Option.map_eq_some_iff.1 h
  obtain ⟨es', rfl⟩ := List.head?_eq_some_iff.1 hhead
  obtain ⟨items, rfl⟩ := exists_list_of_isList he
  exact ⟨items, es', rfl⟩

/-- The HTML text of a list in two parts. -/
lemma html_list_append (items items' : List String) :
    (list (items ++ items')).html =
      ("<ul>" ++ Text.joined "" (items.map (wrap "li"))) ++
        (Text.joined "" (items'.map (wrap "li")) ++ "</ul>") := by
  have hopen : "<ul>" = "<" ++ "ul" ++ ">" := rfl
  have hclose : "</ul>" = "</" ++ "ul" ++ ">" := rfl
  rw [html, wrap, List.map_append, Text.joined_empty_append, hopen, hclose]
  simp only [String.append_assoc]

end Element

/-! ### Pages -/

open Element in
lemma html_append_of_apart {bs cs : List Block} (hbs : bs ≠ []) (hcs : cs ≠ [])
    (h : ¬ (bs.getLast?.map Block.isItem = some true ∧ cs.head?.map Block.isItem = some true)) :
    html (bs ++ cs) = html bs ++ "\n" ++ html cs := by
  rw [← getLast?_ofBlocks, ← head?_ofBlocks] at h
  rw [html, ofBlocks_append, fuse_eq_append h, List.map_append, Text.joined_append]
  · rfl
  · exact fun hnil => ofBlocks_ne_nil hbs (List.map_eq_nil_iff.1 hnil)
  · exact fun hnil => ofBlocks_ne_nil hcs (List.map_eq_nil_iff.1 hnil)

open Element in
lemma html_append_of_items {bs cs : List Block} (hbs : bs.getLast?.map Block.isItem = some true)
    (hcs : cs.head?.map Block.isItem = some true) :
    ∃ front behind, html bs = front ++ "</ul>" ∧ html cs = "<ul>" ++ behind ∧
      html (bs ++ cs) = front ++ behind := by
  rw [← getLast?_ofBlocks] at hbs
  rw [← head?_ofBlocks] at hcs
  obtain ⟨es, items, hes⟩ := exists_append_list hbs
  obtain ⟨items', fs, hfs⟩ := exists_list_cons hcs
  have hleft := html_list_append items []
  have hright := html_list_append [] items'
  rw [List.append_nil] at hleft
  rw [List.nil_append] at hright
  simp only [List.map_nil, Text.joined, String.empty_append, String.append_empty] at hleft hright
  refine ⟨Text.joined "\n"
      (es.map Element.html ++ ["<ul>" ++ Text.joined "" (items.map (wrap "li"))]),
    Text.joined "\n" ((Text.joined "" (items'.map (wrap "li")) ++ "</ul>") :: fs.map Element.html),
    ?_, ?_, ?_⟩
  · rw [html, hes, List.map_append, List.map_singleton, hleft, Text.joined_cut]
    rfl
  · rw [html, hfs, List.map_cons, hright]
    exact Text.joined_cut "\n" [] "<ul>" _ _
  · rw [html, ofBlocks_append, hes, hfs, fuse_lists, List.map_append, List.map_cons, html_list_append,
      Text.joined_cut]

end Markdown
end FormLetter

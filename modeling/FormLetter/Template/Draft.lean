/-
# Building the tree

The tree of a template is built from its segments in one pass.  A draft is the tree as far as it is
built: the finished blocks of the body that is being read, and the open blocks around that body, the
innermost first.  A segment adds a finished block, opens a block, turns to the alternative of the
innermost open block, or closes that block and thereby finishes it.

An alternative under a condition of its own is a condition inside the alternative of the one before
it.  All conditions of such a chain are open until the tag that closes the last of them, which
closes them all.
-/
import FormLetter.Error.Cause
import FormLetter.Template.Block
import FormLetter.Template.Segment

namespace FormLetter
namespace Template

/-- A condition whose consequence is finished. -/
structure Arm where
  /-- Where the condition starts. -/
  start : Position
  condition : String
  consequence : List Block

/-- An open block.  Each form starts with the finished blocks in front of it in the body that it
stands in, last one first; a condition also has the earlier conditions of its chain, last one
first. -/
inductive OpenBlock where
  /-- A condition whose consequence is being read. -/
  | consequence (before : List Block) (earlier : List Arm) (start : Position) (condition : String)
  /-- A condition whose alternative is being read. -/
  | alternative (before : List Block) (earlier : List Arm) (arm : Arm)
  /-- A loop whose body is being read. -/
  | body (before : List Block) (start : Position) (source : String)

namespace OpenBlock

/-- The name that the closing tag has to give. -/
def name : OpenBlock → String
  | consequence _ _ _ _ => "if"
  | alternative _ _ _ => "if"
  | body _ _ _ => "each"

/-- How many blocks are open: each condition of a chain is one. -/
def size : OpenBlock → Nat
  | consequence _ earlier _ _ => earlier.length + 1
  | alternative _ earlier _ => earlier.length + 1
  | body _ _ _ => 1

/-- How many blocks are open, of a row of them one inside the other. -/
def depth : List OpenBlock → Nat
  | [] => 0
  | o :: opened => o.size + depth opened

end OpenBlock

/-- A condition, wrapped in the earlier ones of its chain. -/
def Block.inChain (finish : Position) (b : Block) (earlier : List Arm) : Block :=
  earlier.foldl
    (fun b arm => .conditional arm.condition arm.consequence [b] ⟨arm.start, finish⟩) b

/-- A tree under construction. -/
structure Draft where
  /-- The finished blocks of the body that is being read, last one first. -/
  blocks : List Block
  /-- The open blocks around that body, innermost first. -/
  opened : List OpenBlock

namespace Draft

/-- The draft before the first segment. -/
def empty : Draft := ⟨[], []⟩

/-- How many blocks may be open at once. -/
def maxDepth : Nat := 150

/-- How many blocks are open. -/
def depth (d : Draft) : Nat := OpenBlock.depth d.opened

/-- The draft with one more finished block. -/
def push (d : Draft) (b : Block) : Draft := { d with blocks := b :: d.blocks }

/-- The next draft, if one more block may be open on top of those that count as open. -/
def guarded (counted : Nat) (d next : Draft) : Except Cause Draft :=
  if counted + d.depth + 1 > maxDepth then .error .nestingTooDeep else .ok next

/-- Takes a tag that, by its first word, neither closes nor goes on with a block. -/
def begin (counted : Nat) (span : Span) (contents : List Char) (d : Draft) : Except Cause Draft :=
  match Tag.classify contents with
  | .directive keyword argument =>
    if keyword = "if" then
      if argument = "" then .error .conditionMissing
      else d.guarded counted ⟨[], .consequence d.blocks [] span.start argument :: d.opened⟩
    else if keyword = "each" then
      if argument = "" then .error .sourceMissing
      else d.guarded counted ⟨[], .body d.blocks span.start argument :: d.opened⟩
    else .error (.unknownDirective keyword)
  | .path path => if path = "" then .error .emptyField else .ok (d.push (.field path span))
  | .close _ => .error (.misreadTag (String.ofList (Text.trim contents)))
  | .otherwise _ => .error (.misreadTag (String.ofList (Text.trim contents)))
  | .otherwiseIf _ => .error (.misreadTag (String.ofList (Text.trim contents)))

/-- Takes the tag that has to close the innermost open block, which becomes `b`; `before` is in
front of that block and `rest` is around it. -/
def close (contents : List Char) (name : String) (before : List Block) (rest : List OpenBlock)
    (b : Block) : Except Cause Draft :=
  match Tag.classify contents with
  | .close found =>
    if found = name then .ok ⟨b :: before, rest⟩ else .error (.mismatchedClose name found)
  | _ => .error (.unexpectedTag (String.ofList (Text.trim contents)) name)

/-- Takes a tag that, by its first word, closes or goes on with a block. -/
def proceed (counted : Nat) (span : Span) (contents : List Char) (d : Draft) : Except Cause Draft :=
  match d.opened with
  | [] => .error (.strayTag (String.ofList (Text.trim contents)))
  | .body before start source :: rest =>
    close contents "each" before rest (.loop source d.blocks.reverse ⟨start, span.finish⟩)
  | .alternative before earlier arm :: rest =>
    close contents "if" before rest
      (Block.inChain span.finish
        (.conditional arm.condition arm.consequence d.blocks.reverse ⟨arm.start, span.finish⟩)
        earlier)
  | .consequence before earlier start condition :: rest =>
    let arm : Arm := ⟨start, condition, d.blocks.reverse⟩
    match Tag.classify contents with
    | .close found =>
      if found = "if" then
        .ok ⟨Block.inChain span.finish
          (.conditional condition arm.consequence [] ⟨start, span.finish⟩) earlier :: before, rest⟩
      else .error (.mismatchedClose "if" found)
    | .otherwise junk =>
      if junk = "" then .ok ⟨[], .alternative before earlier arm :: rest⟩
      else .error (.junkAfterElse junk)
    | .otherwiseIf next =>
      if next = "" then .error .alternativeConditionMissing
      else d.guarded counted ⟨[], .consequence before (arm :: earlier) span.start next :: rest⟩
    | .directive _ _ => .error .conditionEndMissing
    | .path _ => .error .conditionEndMissing

/-- Takes the next segment, which covers the given span.  `counted` blocks count as open on top of
those that are. -/
def take (counted : Nat) (span : Span) (d : Draft) : Segment → Except Cause Draft
  | .text content => .ok (d.push (.text (String.ofList content) span))
  | .tag false contents => d.begin counted span contents
  | .tag true contents => d.proceed counted span contents
  | .markdown contents =>
    let path := String.ofList (Text.trim contents)
    if path = "" then .error .emptyMarkdown else .ok (d.push (.markdown path span))
  | .broken fence _ none => .error (.unclosedTag fence)
  | .broken fence _ (some found) => .error (.misplacedToken found fence)

/-- The finished tree, if no block is open. -/
def finish (d : Draft) : Except Cause (List Block) :=
  match d.opened with
  | [] => .ok d.blocks.reverse
  | o :: _ => .error (.unclosedBlock o.name)

/-- How the construction of a tree ends. -/
structure Outcome where
  /-- The tree, or why there is none. -/
  result : Except Cause (List Block)
  /-- Where the segments start that were not taken. -/
  position : Position
  /-- The segments that were not taken. -/
  unread : List Segment

/-- Takes segments, the first of which stands at `p`, up to the first one that does not fit. -/
def run (counted : Nat) (p : Position) (d : Draft) : List Segment → Outcome
  | [] => ⟨d.finish, p, []⟩
  | segment :: rest =>
    let q := p.after segment.source
    match d.take counted ⟨p, q⟩ segment with
    | .ok next => run counted q next rest
    | .error cause => ⟨.error cause, q, rest⟩

end Draft
end Template
end FormLetter

/-
# Causes of errors

All that can go wrong with a letter: a template that has no tree, a value that a block cannot use,
data that is no value, a letter that is not there.  A cause determines the kind of an error and the
detail of its message.
-/
import FormLetter.Template.Cursor
import FormLetter.Value.Basic

namespace FormLetter

/-- The kinds of errors. -/
inductive ErrorKind where
  /-- A tag opens a block that there is no rule for. -/
  | unknownDirective
  /-- A template has no tree. -/
  | malformedBlock
  /-- A block needs a value that is missing or of another kind. -/
  | missingParameter
  /-- A condition has no truth value. -/
  | conditionType
  /-- There is no template of a name. -/
  | templateNotFound
  /-- Data is no value. -/
  | badData
deriving DecidableEq

/-- The kind in one word. -/
def ErrorKind.identifier : ErrorKind → String
  | unknownDirective => "UnknownDirective"
  | malformedBlock => "MalformedBlock"
  | missingParameter => "MissingParameter"
  | conditionType => "ConditionType"
  | templateNotFound => "TemplateNotFound"
  | badData => "BadSerialization"

/-- The kind in the words of a message. -/
def ErrorKind.description : ErrorKind → String
  | unknownDirective => "unknown directive"
  | malformedBlock => "malformed block"
  | missingParameter => "missing parameter"
  | conditionType => "condition has no truth value"
  | templateNotFound => "template not found"
  | badData => "could not serialize to internal format"

/-- What went wrong. -/
inductive Cause where
  /-- The template ends within a tag. -/
  | unclosedTag (fence : Template.Fence)
  /-- Another delimiter stands within a tag. -/
  | misplacedToken (found : Template.Token) (fence : Template.Fence)
  /-- The template ends within a block. -/
  | unclosedBlock (name : String)
  /-- A tag closes or goes on with a block where no block is open. -/
  | strayTag (contents : String)
  /-- A tag closes or goes on with a block although its first word did not look like it. -/
  | misreadTag (contents : String)
  /-- A tag opens a block that there is no rule for. -/
  | unknownDirective (keyword : String)
  /-- A condition opens without saying what it depends on. -/
  | conditionMissing
  /-- An alternative under a condition of its own does not say what it depends on. -/
  | alternativeConditionMissing
  /-- A loop opens without saying what it runs over. -/
  | sourceMissing
  /-- A field has no path. -/
  | emptyField
  /-- A markdown field has no path. -/
  | emptyMarkdown
  /-- Something follows the word that begins an alternative. -/
  | junkAfterElse (junk : String)
  /-- A block is closed under the name of another. -/
  | mismatchedClose (expected found : String)
  /-- A block whose end is due goes on. -/
  | unexpectedTag (contents name : String)
  /-- A condition is followed by a tag that neither closes nor goes on with it. -/
  | conditionEndMissing
  /-- Too many blocks are open at once. -/
  | nestingTooDeep
  /-- There is no value at a path. -/
  | valueMissing (path : String)
  /-- A markdown field is not a text. -/
  | textExpected (path : String) (kind : Value.Kind)
  /-- A loop does not run over a sequence. -/
  | sequenceExpected (path : String) (kind : Value.Kind)
  /-- A condition has no truth value. -/
  | truthExpected (path : String) (kind : Value.Kind)
  /-- There is no template of a name. -/
  | templateMissing (name : String)
  /-- A whole number takes more than 64 bits. -/
  | integerOutOfRange (n : Int)
  /-- The key of a map is neither a text nor a whole number nor a truth value. -/
  | keyKind (kind : Value.Kind)
  /-- A value comes without a key in front of it. -/
  | keyMissing
  /-- The data itself reports a failure. -/
  | failure (message : String)
  /-- An error that is reported by its kind, with or without a detail. -/
  | reported (kind : ErrorKind) (detail : Option String)
deriving DecidableEq

namespace Cause

/-- The kind of an error with the given cause. -/
def kind : Cause → ErrorKind
  | unknownDirective _ => .unknownDirective
  | valueMissing _ => .missingParameter
  | textExpected _ _ => .missingParameter
  | sequenceExpected _ _ => .missingParameter
  | truthExpected _ _ => .conditionType
  | templateMissing _ => .templateNotFound
  | integerOutOfRange _ => .badData
  | keyKind _ => .badData
  | keyMissing => .badData
  | failure _ => .badData
  | reported kind _ => kind
  | unclosedTag _ => .malformedBlock
  | misplacedToken _ _ => .malformedBlock
  | unclosedBlock _ => .malformedBlock
  | strayTag _ => .malformedBlock
  | misreadTag _ => .malformedBlock
  | conditionMissing => .malformedBlock
  | alternativeConditionMissing => .malformedBlock
  | sourceMissing => .malformedBlock
  | emptyField => .malformedBlock
  | emptyMarkdown => .malformedBlock
  | junkAfterElse _ => .malformedBlock
  | mismatchedClose _ _ => .malformedBlock
  | unexpectedTag _ _ => .malformedBlock
  | conditionEndMissing => .malformedBlock
  | nestingTooDeep => .malformedBlock

/-- Something stands where something else has to. -/
def unexpected (found expected : String) : String :=
  "unexpected " ++ found ++ ", expected " ++ expected

/-- The end of the template stands where something else has to. -/
def unexpectedEnd (expected : String) : String := unexpected "end of input" expected

/-- The detail of a message with the given cause. -/
def detail : Cause → Option String
  | unclosedTag fence => some (unexpectedEnd (Template.Token.closing fence).description)
  | misplacedToken found fence =>
    some (unexpected found.description (Template.Token.closing fence).description)
  | unclosedBlock name => some (unexpectedEnd ("`\x7b\x7b/" ++ name ++ "\x7d\x7d`"))
  | strayTag contents => some ("unexpected tag " ++ Text.quote contents ++ " outside of a block")
  | misreadTag contents => some ("unexpected tag " ++ Text.quote contents ++ " outside of a block")
  | unknownDirective keyword => some ("unknown directive `" ++ keyword ++ "`")
  | conditionMissing => some "missing condition in `if` directive"
  | alternativeConditionMissing => some "missing condition in `elseif`"
  | sourceMissing => some "missing source in `each` directive"
  | emptyField => some "empty interpolation"
  | emptyMarkdown => some "empty markdown interpolation"
  | junkAfterElse junk =>
    some (unexpected (Text.quote junk) (Template.Token.closing .plain).description)
  | mismatchedClose expected found =>
    some ("mismatched closing tag: expected `/" ++ expected ++ "`, found `/" ++ found ++ "`")
  | unexpectedTag contents name =>
    some ("unexpected tag " ++ Text.quote contents ++ " in `" ++ name ++ "` block, expected `/" ++
      name ++ "`")
  | conditionEndMissing => some "expected end of `if` block"
  | nestingTooDeep => some "template exceeds maximum recursion limits"
  | valueMissing path => some ("parameter `" ++ path ++ "` is missing")
  | textExpected path kind =>
    some ("parameter `" ++ path ++ "` is a " ++ kind.word ++ ", markdown needs a string")
  | sequenceExpected path kind =>
    some ("parameter `" ++ path ++ "` is a " ++ kind.word ++ ", expected a sequence")
  | truthExpected path kind =>
    some ("condition `" ++ path ++ "` is a " ++ kind.word ++ " which has no truth value")
  | templateMissing name => some ("template " ++ Text.quote name ++ " does not exist")
  | integerOutOfRange n =>
    some ("integer " ++ toString n ++ " does not fit into a 64 bit signed integer")
  | keyKind kind => some ("map keys must be strings, integers or booleans, got " ++ kind.word)
  | keyMissing => some "map value serialized before its key"
  | failure message => some message
  | reported _ detail => detail

end Cause
end FormLetter

-- Why a text has no value: it is not YAML, or one of its scalars does not
-- make the value that its tag or its form calls for.
import ComponentLint.Number.Literal
import ComponentLint.Time.Text

namespace ComponentLint.Yaml

open ComponentLint.Number ComponentLint.Text

/-- Why a text has no value. -/
inductive Fault where
  /-- The text is not YAML, or its nodes do not fit their tags. -/
  | invalid
  /-- An escape beyond the last code point. -/
  | codePoint
  /-- An escape beyond every signed word. -/
  | codePointSize
  /-- A word that is no truth value. -/
  | truthValue (word : String)
  /-- A number without any digits. -/
  | emptyNumber
  | integer (base : Nat) (text : String) (cause : IntFault)
  | float (text : String)
  /-- A floating-point number with too many parts in sixties. -/
  | sixties
  /-- A text that is no point in time. -/
  | timeForm
  /-- A mapping in place of a point in time. -/
  | timeMapping
  | time (fault : Time.Fault)
  /-- A scalar that stands for itself. -/
  | bottomless
  deriving DecidableEq, Repr

namespace Fault

/-- The class of a fault, none when the text is not YAML. -/
def className? : Fault → Option String
  | invalid => none
  | codePoint => some "ValueError"
  | codePointSize => some "OverflowError"
  | truthValue _ => some "KeyError"
  | emptyNumber => some "IndexError"
  | integer _ _ _ => some "ValueError"
  | float _ => some "ValueError"
  | sixties => some "OverflowError"
  | timeForm => some "AttributeError"
  | timeMapping => some "TypeError"
  | time _ => some "ValueError"
  | bottomless => some "RecursionError"

/-- The wording of a fault. -/
def message : Fault → String
  | invalid => "invalid YAML"
  | codePoint => "chr() arg not in range(0x110000)"
  | codePointSize => "Python int too large to convert to C int"
  | truthValue word => quoted word
  | emptyNumber => "string index out of range"
  | integer base text cause => cause.message base (quoted text)
  | float text => "could not convert string to float: " ++ quoted text
  | sixties => "int too large to convert to float"
  | timeForm => "'NoneType' object has no attribute 'groupdict'"
  | timeMapping => "expected string or bytes-like object, got 'list'"
  | time fault => fault.message
  | bottomless => "maximum recursion depth exceeded"

end Fault

/-- Goes on only when a condition holds. -/
def require (condition : Bool) : Except Fault Unit :=
  if condition then .ok () else .error .invalid

/-- Goes on with what is there; without it the text is not YAML. -/
def orInvalid {α : Type} : Option α → Except Fault α
  | some a => .ok a
  | none => .error .invalid

end ComponentLint.Yaml

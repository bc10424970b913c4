-- Suppressions: the findings of one rule, or of all, on one line of a file
-- are silenced. They are read from directives in the source text.
import ComponentLint.Source.Span
import ComponentLint.Text.Basic
import ComponentLint.Text.Letter

namespace ComponentLint

open ComponentLint.Text

/-- Silences a rule on the target line of a file. Line and column tell where it was written. -/
structure Suppression where
  file : String
  ruleId : String
  target : Numeral
  line : Numeral
  column : Numeral
  deriving DecidableEq, Repr

namespace Suppression

/-- The name that stands for every rule. -/
def allRules : String := "all"

/-- Whether a finding of a rule that starts on a line of a file is silenced
(`Suppression.matches`). -/
def covers (s : Suppression) (ruleId file : String) (startLine : Int) : Bool :=
  file == s.file && startLine == s.target.value && (s.ruleId == allRules || s.ruleId == ruleId)

end Suppression

/-! ## Directives in the source text -/

/-- A directive of a source line: what stands before it, whether it is spelled for the next line,
and the text after its verb. -/
structure Directive where
  before : List Char
  forNext : Bool
  rest : List Char
  deriving DecidableEq, Repr

namespace Directive

/-- The text after a verb, when it is there and ends at a word boundary. -/
def afterVerb? (verb : String) (cs : List Char) : Option (List Char) :=
  (List.isPrefixOf? verb.toList cs).filter atBoundary

/-- The directive that starts with the very first character, if one does. -/
def here? (before cs : List Char) : Option Directive := do
  let body ← List.isPrefixOf? "//".toList cs
  let verb ← List.isPrefixOf? "viewlint:".toList (body.dropWhile isBlank)
  match afterVerb? "ignore-next-line" verb with
  | some rest => some ⟨before, true, rest.takeWhile (· ≠ '\n')⟩
  | none => (afterVerb? "ignore" verb).map fun rest => ⟨before, false, rest.takeWhile (· ≠ '\n')⟩

/-- The first directive of a line, given the characters before it in reverse. -/
def findFrom (before : List Char) : List Char → Option Directive
  | [] => none
  | c :: cs => (here? before.reverse (c :: cs)).or (findFrom (c :: before) cs)

/-- The first directive of a line. -/
def find? (line : String) : Option Directive := findFrom [] line.toList

/-- A character that a rule name can start with. -/
def startsName (c : Char) : Bool := c.isAlpha

/-- A character that a rule name can go on with. -/
def inName (c : Char) : Bool := c.isAlphanum || c = '_' || c = '-'

/-- The rule names among the characters, from left to right; a name already begun comes in
reverse. -/
def scanNames : Option (List Char) → List Char → List String
  | none, [] => []
  | some name, [] => [String.ofList name.reverse]
  | none, c :: rest => if startsName c then scanNames (some [c]) rest else scanNames none rest
  | some name, c :: rest =>
    if inName c then scanNames (some (c :: name)) rest
    else String.ofList name.reverse :: scanNames none rest

/-- The first occurrence of each name. -/
def distinct (names : List String) : List String :=
  names.foldl (fun seen name => if seen.contains name then seen else seen ++ [name]) []

/-- The rules a directive names: those before a reason, which follows ` -- `, or all. -/
def ruleIds (d : Directive) : List String :=
  match distinct (scanNames none (beforeFirst " -- ".toList d.rest)) with
  | [] => [Suppression.allRules]
  | names => names

/-- Whether a directive is meant for the line after it: it is spelled so, or stands alone. -/
def targetsNext (d : Directive) : Bool := d.forNext || allBlank d.before

/-- The suppressions that a directive on a line of a file stands for. -/
def suppressions (file : String) (line : Nat) (d : Directive) : List Suppression :=
  let target : Int := if d.targetsNext then line + 1 else line
  d.ruleIds.map fun id =>
    ⟨file, id, .int target, .int line, .int (d.before.length + 1)⟩

end Directive

namespace Suppression

/-- The suppressions written on lines that are numbered from `first`. -/
def ofLinesFrom (file : String) : Nat → List String → List Suppression
  | _, [] => []
  | n, line :: rest =>
    ((Directive.find? line).map (Directive.suppressions file n)).getD []
      ++ ofLinesFrom file (n + 1) rest

/-- The suppressions written on the lines of a file (`parse_suppressions`). -/
def ofLines (file : String) (lines : List String) : List Suppression := ofLinesFrom file 1 lines

end Suppression

end ComponentLint

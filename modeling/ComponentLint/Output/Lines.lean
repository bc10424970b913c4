-- Results as lines of text. The one form has a line for each finding, its
-- fields separated by colons. The other consists of workflow commands, one
-- for each finding and each failure of a rule, which a build service shows
-- beside the source; what would end a line or a property of a command is
-- written as a percent escape.
import ComponentLint.Run.Result
import ComponentLint.Text.Basic

namespace ComponentLint.Output

open ComponentLint.Number ComponentLint.Text

/-! ## Fields separated by colons -/

/-- The line of a finding; line feeds in its message become blanks. -/
def porcelainLine (f : Finding) : Except LongInteger String := do
  let line ← f.place.startLine.toText
  let col ← f.place.startCol.toText
  return ":".intercalate
    [f.place.file, line, col, f.severity, f.ruleId, replaceChar '\n' " " f.message]

/-- The lines of a result (`format_porcelain`). -/
def porcelain (r : RunResult) : Except LongInteger String := do
  return "\n".intercalate (← r.findings.mapM porcelainLine)

/-! ## Workflow commands -/

/-- A character of the text of a command. -/
def escapeDataChar (c : Char) : List Char :=
  if c = '%' then "%25".toList
  else if c = '\r' then "%0D".toList
  else if c = '\n' then "%0A".toList
  else [c]

/-- A character of a property of a command. -/
def escapePropertyChar (c : Char) : List Char :=
  if c = ':' then "%3A".toList else if c = ',' then "%2C".toList else escapeDataChar c

/-- The text of a command (`_escape_data`). -/
def escapeData (s : String) : String := String.ofList (s.toList.flatMap escapeDataChar)

/-- A property of a command (`_escape_property`). -/
def escapeProperty (s : String) : String := String.ofList (s.toList.flatMap escapePropertyChar)

/-- The command for a severity. -/
def workflowLevel : Severity → String
  | .error => "error"
  | .warning => "warning"
  | .info => "notice"

/-- What is said about a finding: its message and, on a line of its own, its suggestion. -/
def workflowBody (f : Finding) : String :=
  match f.suggestion with
  | some s => if s.isEmpty then f.message else f.message ++ "\n" ++ s
  | none => f.message

/-- The line that a finding ends on, which is told when it is another one than it starts on. -/
def workflowEnd (p : Place) : Except LongInteger (List String) :=
  if p.endLine.value = p.startLine.value then .ok []
  else do return ["endLine=" ++ (← p.endLine.toText)]

/-- The properties of a finding. -/
def workflowProperties (f : Finding) : Except LongInteger (List String) := do
  let line ← f.place.startLine.toText
  let col ← f.place.startCol.toText
  let ending ← workflowEnd f.place
  return ["file=" ++ escapeProperty f.place.file, "line=" ++ line, "col=" ++ col] ++ ending
    ++ ["title=" ++ escapeProperty f.ruleId]

/-- The line of a finding. -/
def workflowFinding (f : Finding) : Except (Stop Unranked) String := do
  let properties ← Stop.writing (workflowProperties f)
  let severity ← Stop.refusing (Severity.ofName f.severity)
  return "::" ++ workflowLevel severity ++ " " ++ ",".intercalate properties ++ "::"
    ++ escapeData (workflowBody f)

/-- The line of a rule's failure. -/
def workflowError (e : RuleError) : Except LongInteger String := do
  return "::error file=" ++ escapeProperty e.place.file ++ ",line=" ++ (← e.place.startLine.toText)
    ++ ",title=rule-error::" ++ escapeData e.message

/-- The commands of a result (`format_github`). -/
def workflow (r : RunResult) : Except (Stop Unranked) String := do
  let findings ← r.findings.mapM workflowFinding
  let errors ← Stop.writing (r.report.errors.mapM workflowError)
  return "\n".intercalate (findings ++ errors)

end ComponentLint.Output

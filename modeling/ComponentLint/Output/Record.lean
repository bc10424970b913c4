-- A result as one JSON text.
import ComponentLint.Json.Basic
import ComponentLint.Run.Result

namespace ComponentLint.Output

/-- A number as it was written. -/
def numeralJson : Numeral → Json
  | .int n => .int n
  | .flag b => .bool b

/-- A text that may be absent. -/
def optionalJson (s : Option String) : Json := (s.map Json.str).getD .null

/-- The record of a finding (`_finding_to_dict`). -/
def findingJson (f : Finding) : Json :=
  .obj [("rule_id", .str f.ruleId), ("severity", .str f.severity), ("file", .str f.place.file),
    ("line", numeralJson f.place.startLine), ("column", numeralJson f.place.startCol),
    ("end_line", numeralJson f.place.endLine), ("end_column", numeralJson f.place.endCol),
    ("message", .str f.message), ("suggestion", optionalJson f.suggestion)]

/-- The record of a rule's failure. -/
def errorJson (e : RuleError) : Json :=
  .obj [("rule_id", .str e.ruleId), ("file", .str e.place.file),
    ("line", numeralJson e.place.startLine), ("column", numeralJson e.place.startCol),
    ("message", .str e.message)]

/-- The record of a skipped unit. -/
def skippedJson (s : SkippedUnit) : Json := .obj [("path", .str s.path), ("reason", .str s.reason)]

/-- The record of a result. -/
def resultJson (r : RunResult) : Except Unranked Json := do
  let counts ← r.report.counts
  let highest ← r.report.highest?
  let summary : Json := .obj
    [("counts", .obj (counts.map fun (level, n) => (level.name, .int n))),
     ("findings_count", .int r.findings.length),
     ("highest_severity", optionalJson (highest.map Severity.name)),
     ("fail_on", .str r.failOn), ("units_analyzed", .int r.unitsAnalyzed),
     ("rules_evaluated", .int r.rulesEvaluated), ("elapsed_ms", .float r.elapsedMs)]
  return .obj
    [("findings", .arr (r.findings.map findingJson)),
     ("errors", .arr (r.report.errors.map errorJson)),
     ("skipped", .arr (r.skipped.map skippedJson)),
     ("config_errors", .arr (r.configErrors.map fun e => .str e.toText)),
     ("summary", summary)]

/-- The JSON text of a result (`format_json`). -/
def record (r : RunResult) : Except (Stop Unranked) String := do
  let j ← Stop.refusing (resultJson r)
  Stop.writing (j.pretty 0)

end ComponentLint.Output

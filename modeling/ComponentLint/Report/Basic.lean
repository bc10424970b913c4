-- Reports: findings with the rule failures met along the way, how they are
-- counted, and how the reports of several units become one.
import ComponentLint.Report.Finding

namespace ComponentLint

/-- Findings, and the failures of rules beside them (`Report`). -/
structure Report where
  findings : List Finding := []
  errors : List RuleError := []
  deriving DecidableEq, Repr

namespace Report

/-! ## Counts -/

/-- The severities, the gravest first. -/
def levels : List Severity := [.error, .warning, .info]

/-- The severities of the findings, all of which have to be known. -/
def severities (r : Report) : Except Unranked (List Severity) :=
  r.findings.mapM fun f => Severity.ofName f.severity

/-- How many findings there are of each severity, the gravest first. -/
def counts (r : Report) : Except Unranked (List (Severity × Nat)) := do
  let found ← r.severities
  return levels.map fun level => (level, found.count level)

/-- The gravest severity of a finding. -/
def highest? (r : Report) : Except Unranked (Option Severity) := do
  let found ← r.severities
  return levels.find? fun level => found.contains level

/-- Whether one of the findings reaches a rank; the search ends at the first that does. -/
def anyReaches (rank : Nat) : List Finding → Except Unranked Bool
  | [] => .ok false
  | f :: rest => do
    let severity ← Severity.ofName f.severity
    if rank ≤ severity.rank then return true else anyReaches rank rest

/-- Whether one of the findings is at least as grave as a named severity (`has_at_least`). -/
def hasAtLeast (r : Report) (threshold : String) : Except Unranked Bool := do
  let severity ← Severity.ofName threshold
  anyReaches severity.rank r.findings

/-! ## Merging -/

/-- Report order of rule failures: by place, then by rule. -/
def errorOrder (a b : RuleError) : Ordering :=
  (a.place.span.order b.place.span).then (compare a.ruleId b.ruleId)

/-- Several reports as one, in report order (`Report.merge`). -/
def merge (reports : List Report) : Except Unranked Report := do
  let findings ← Finding.sort (reports.flatMap Report.findings)
  let errors := (reports.flatMap Report.errors).mergeSort fun a b => (errorOrder a b).isLE
  return ⟨findings, errors⟩

end Report

end ComponentLint

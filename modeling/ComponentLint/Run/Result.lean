-- The result of a run over several units, and the exit code it stands for.
import ComponentLint.Report.Basic
import ComponentLint.Rule.Config

namespace ComponentLint

open ComponentLint.Number

/-- A unit that was not analyzed, and why. -/
structure SkippedUnit where
  path : String
  reason : String
  deriving DecidableEq, Repr

/-- What a run brought to light. -/
structure RunResult where
  report : Report := {}
  unitsAnalyzed : Nat := 0
  rulesEvaluated : Nat := 0
  skipped : List SkippedUnit := []
  configErrors : List ConfigError := []
  failOn : String := Severity.error.name
  cancelled : Bool := false
  elapsedMs : Binary64 := Binary64.zero false
  deriving Repr

namespace RunResult

/-- The findings of all units. -/
def findings (r : RunResult) : List Finding := r.report.findings

/-- Whether a finding is grave enough for the run to fail. -/
def shouldFail (r : RunResult) : Except Unranked Bool := r.report.hasAtLeast r.failOn

/-- The exit code of a run: one when it fails. -/
def exitCode (r : RunResult) : Except Unranked Nat := do return if ← r.shouldFail then 1 else 0

end RunResult

end ComponentLint

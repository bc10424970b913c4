-- A run over several units. The configuration is resolved first, and nothing
-- is analyzed when it is unusable; a unit that cannot be read is skipped.
import ComponentLint.File.Document
import ComponentLint.Report.Aggregate
import ComponentLint.Rule.Layer
import ComponentLint.Run.Log
import ComponentLint.Run.Result

namespace ComponentLint

/-! ## Requests and refusals -/

/-- What a run is asked to do. -/
structure RunRequest where
  models : List Path
  configs : List Path := []
  failOn : Option String := none
  jobs : Int := 1
  /-- Whether the run has been called off when the unit at a place is taken up. -/
  stopped : Nat → Bool := fun _ => false

/-- Why a run ends without a result. -/
inductive RunFault where
  | layer (fault : LayerFault)
  | catalog (fault : CatalogFault)
  | failOn (word : String)
  | unranked (fault : Unranked)
  /-- An integer has too many digits to be written. -/
  | longInteger
  deriving Repr

namespace RunFault

/-- The class of a refusal; `LintError` is the one of a configuration that cannot be used. -/
def className : RunFault → String
  | layer (.invalid _) => "LintError"
  | layer f => f.className
  | catalog _ => "LintError"
  | failOn _ => "LintError"
  | unranked _ => "KeyError"
  | longInteger => "ValueError"

/-- The wording of a refusal. -/
def message : RunFault → String
  | layer (.invalid e) => "Invalid configuration: " ++ e.toText
  | layer f => f.message
  | catalog f => "Invalid configuration: " ++ f.message
  | failOn word => s!"Invalid fail-on severity '{word}'"
  | unranked f => f.message
  | longInteger => Number.LongInteger.message

/-- What a refusal that may also be about a long integer comes to. -/
def ofStop {ε : Type} (refusal : ε → RunFault) : Stop ε → RunFault
  | .refused cause => refusal cause
  | .longInteger => longInteger

end RunFault

/-! ## One unit -/

/-- Why the units of a run that has been called off are skipped. -/
def cancelledReason : String := "cancelled"

/-- What became of a unit. -/
inductive UnitOutcome where
  | analyzed (report : Report)
  | skipped (unit : SkippedUnit)
  deriving Repr

namespace UnitOutcome

/-- The report of a unit that was analyzed. -/
def report? : UnitOutcome → Option Report
  | analyzed r => some r
  | skipped _ => none

/-- The unit, when it was skipped. -/
def skipped? : UnitOutcome → Option SkippedUnit
  | analyzed _ => none
  | skipped u => some u

end UnitOutcome

/-- The outcome of a unit and what was noted on the way. -/
structure UnitRun where
  outcome : UnitOutcome
  log : List LogLine := []
  deriving Repr

/-- The note about a unit that cannot be read. -/
def skipNote (path : Path) (fault : UnitFault) : LogLine :=
  let text := match fault.className? with
    | some name => s!"Skipping unit {path.toText}: {name}: {fault.message}"
    | none => s!"Skipping malformed unit {path.toText}: {fault.message}"
  ⟨.warning, "viewlint.linter", text⟩

/-- The notes about a unit that was analyzed. -/
def analysisNotes (m : Model) (a : Analysis) : List LogLine :=
  let loaded := s!"Loaded {m.file}: {m.size} nodes, {m.suppressions.length} suppressions"
  let counted := s!"{m.file}: {a.visited} nodes, {a.findings.length} findings, "
    ++ s!"{a.errors.length} rule errors"
  ⟨.debug, "viewlint.model.loader", loaded⟩
    :: a.errors.map (fun e => ⟨.warning, "viewlint.engine.matcher", e.message⟩)
    ++ [⟨.debug, "viewlint.engine.matcher", counted⟩]

/-- Takes up one unit (`_lint_path`). -/
def Workspace.lintUnit (w : Workspace) (rs : ActiveRules) (stopped : Bool) (path : Path) :
    Except (Stop Unranked) UnitRun :=
  if stopped then .ok { outcome := .skipped ⟨path.toText, cancelledReason⟩ }
  else
    match w.readModel path with
    | .error fault =>
      .ok ⟨.skipped ⟨path.toText, fault.reason⟩, [skipNote path fault]⟩
    | .ok m => do
      let analysis ← Stop.writing (Analysis.ofModel m rs)
      let report ← Report.ofAnalysis m rs analysis
      return ⟨.analyzed report, analysisNotes m analysis⟩

/-! ## The run -/

/-- A list cut into batches of a size, the last of which may be smaller. -/
def batches {α : Type} (size : Nat) (items : List α) : List (List α) :=
  if _h : items = [] ∨ size = 0 then (if items.isEmpty then [] else [items])
  else items.take size :: batches size (items.drop size)
termination_by items.length
decreasing_by
  have : 0 < items.length := List.length_pos_iff.mpr (fun e => _h (Or.inl e))
  simp only [List.length_drop]
  omega

/-- Takes up the units in batches of as many as are worked on at a time. -/
def Workspace.lintUnits (w : Workspace) (rs : ActiveRules) (request : RunRequest) :
    Except (Stop Unranked) (List UnitRun) := do
  let runs ← (batches request.jobs.toNat request.models.zipIdx).mapM fun batch =>
    batch.mapM fun (path, place) => w.lintUnit rs (request.stopped place) path
  return runs.flatten

/-- The notes about malformed entries of a configuration. -/
def configNotes (config : Configuration) : List LogLine :=
  (config.errors.filter fun e => e.ruleId.isSome).map fun e =>
    ⟨.warning, "viewlint.config", "Skipping configuration entry: " ++ e.toText⟩

/-- A finished or refused run, with what was noted down; of a refused one, what was noted down
before any unit was taken up. -/
structure Run where
  outcome : Except RunFault RunResult
  log : List LogLine

/-- The result that the outcomes of all units make. -/
def RunResult.ofUnits (rs : ActiveRules) (config : Configuration) (failOn : Severity)
    (units : List UnitOutcome) : Except Unranked RunResult := do
  let reports := units.filterMap UnitOutcome.report?
  let skipped := units.filterMap UnitOutcome.skipped?
  let report ← Report.merge reports
  return {
    report
    unitsAnalyzed := reports.length
    rulesEvaluated := rs.rules.length
    skipped
    configErrors := config.errors
    failOn := failOn.name
    cancelled := skipped.any fun s => s.reason == cancelledReason }

/-- The rules and the threshold of a run under a configuration. -/
def resolveRun (c : Catalog) (config : Configuration) (failOn : Option String) :
    Except RunFault (ActiveRules × Severity) := do
  let rs ← (c.resolve config).mapError (.ofStop .catalog)
  let severity ← match failOn with
    | none => pure config.failOn
    | some word => (Severity.ofName? word).elim (throw (.failOn word)) pure
  return (rs, severity)

/-- What all layers of a run say, given the layers of each configuration file. -/
def Workspace.configuration (w : Workspace) (c : Catalog) (configs : List Path) :
    Except RunFault Configuration := do
  let layers ← (configs.mapM w.readLayer).mapError .layer
  (Configuration.ofLayers c layers).mapError fun _ => .longInteger

/-- Runs the rules of a catalog over the units of a request (`lint`). -/
def Workspace.lint (w : Workspace) (c : Catalog) (request : RunRequest) : Run :=
  match w.configuration c request.configs with
  | .error fault => ⟨.error fault, []⟩
  | .ok config =>
    let notes := configNotes config
    match resolveRun c config request.failOn with
    | .error fault => ⟨.error fault, notes⟩
    | .ok (rs, failOn) =>
      match w.lintUnits rs request with
      | .error stop => ⟨.error (.ofStop .unranked stop), notes⟩
      | .ok runs =>
        let result := RunResult.ofUnits rs config failOn (runs.map UnitRun.outcome)
        ⟨result.mapError .unranked, notes ++ runs.flatMap UnitRun.log⟩

end ComponentLint

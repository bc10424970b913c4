-- The report of one unit: of findings with the same rule and span the first
-- one counts, suppressed findings are dropped, and a suppression that silences
-- nothing is reported in turn.
import ComponentLint.Check.Standard
import ComponentLint.Report.Analysis
import ComponentLint.Report.Basic

namespace ComponentLint

open ComponentLint.Number

/-- Whether a suppression silences a finding. -/
def Suppression.silences (s : Suppression) (f : Finding) : Bool :=
  s.covers f.ruleId f.span.file f.span.startLine

namespace Report

/-- The findings whose rule and span are new. -/
def firstOccurrences (seen : List (String × Span)) : List Finding → List Finding
  | [] => []
  | f :: rest =>
    let key := (f.ruleId, f.span)
    if seen.contains key then firstOccurrences seen rest
    else f :: firstOccurrences (key :: seen) rest

/-! ## Unused suppressions -/

/-- What there is to say about a suppression that silences nothing: it names a rule that does not
exist, or its rule found nothing on the line. -/
inductive Idle where
  | unknownRule
  | noMatch
  deriving DecidableEq, Repr

/-- Whether and why an idle suppression is reported. One of a rule that is switched off is not. -/
def idle? (rules : Option ActiveRules) (s : Suppression) : Option Idle :=
  match rules with
  | none => some .noMatch
  | some rs =>
    if s.ruleId = Suppression.allRules ∨ rs.has s.ruleId then some .noMatch
    else if rs.isRegistered s.ruleId then none
    else some .unknownRule

/-- What is said about an idle suppression. -/
def idleMessage (s : Suppression) : Idle → Except LongInteger String
  | .unknownRule => .ok s!"Suppression names unknown rule '{s.ruleId}' and silences nothing"
  | .noMatch => do
    return s!"Suppression of '{s.ruleId}' for line {← s.target.toText} did not match any finding"

/-- What is to be done about an idle suppression. -/
def idleAdvice : Idle → String
  | .unknownRule => "Fix the rule id or remove the directive."
  | .noMatch => "Remove the directive."

/-- The finding about an idle suppression, at the place where it was written. -/
def idleFinding (severity : String) (s : Suppression) (why : Idle) :
    Except LongInteger Finding := do
  return {
    ruleId := unusedSuppression
    severity := severity
    place := Place.point s.file s.line s.column
    message := ← idleMessage s why
    suggestion := some (idleAdvice why) }

/-- The severity of findings about idle suppressions, none when they are switched off. -/
def idleSeverity? (rules : Option ActiveRules) : Option String :=
  match rules with
  | none => some Severity.info.name
  | some rs => (rs.get? unusedSuppression).map ActiveRule.severity

/-- The idle suppressions that are reported, each with why. -/
def reported (rules : Option ActiveRules) (suppressions : List Suppression) :
    List (Suppression × Idle) :=
  suppressions.filterMap fun s => (idle? rules s).map (s, ·)

/-- The findings about idle suppressions (`_unused_findings`). -/
def idleFindings (rules : Option ActiveRules) (suppressions : List Suppression) :
    Except LongInteger (List Finding) :=
  match idleSeverity? rules with
  | none => .ok []
  | some severity => (reported rules suppressions).mapM fun e => idleFinding severity e.1 e.2

/-! ## Reports of units -/

/-- The report on some findings under some suppressions (`aggregate`). -/
def aggregate (findings : List Finding) (suppressions : List Suppression)
    (errors : List RuleError) (rules : Option ActiveRules) : Except (Stop Unranked) Report := do
  let unique := firstOccurrences [] findings
  let kept := unique.filter fun f => !suppressions.any (·.silences f)
  let idle := suppressions.filter fun s => !unique.any s.silences
  let unused ← Stop.writing (idleFindings rules idle)
  let sorted ← Stop.refusing (Finding.sort (kept ++ unused))
  return ⟨sorted, errors⟩

/-- The report on the analysis of a unit by the rules of a run. -/
def ofAnalysis (m : Model) (rs : ActiveRules) (a : Analysis) : Except (Stop Unranked) Report :=
  aggregate a.findings m.suppressions a.errors (some rs)

/-- The report on a unit by the rules of a run (`lint_model`). -/
def ofModel (m : Model) (rs : ActiveRules) : Except (Stop Unranked) Report := do
  ofAnalysis m rs (← Stop.writing (Analysis.ofModel m rs))

end Report

end ComponentLint

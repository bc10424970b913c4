-- Findings, and the failures of rules that are reported beside them.
import ComponentLint.Rule.Active

namespace ComponentLint

open ComponentLint.Number ComponentLint.Text

/-- A reported violation (`Finding`). -/
structure Finding where
  ruleId : String
  severity : String
  place : Place
  message : String
  suggestion : Option String := none
  deriving DecidableEq, Repr

/-- The failure of a rule at a place. -/
structure RuleFailure where
  ruleId : String
  place : Place
  failure : Failure
  deriving DecidableEq, Repr

/-- The wording of a rule's failure. -/
def RuleFailure.wording (f : RuleFailure) : Except LongInteger String := do
  return s!"{← f.place.toText}: rule '{f.ruleId}' failed: {← f.failure.toText}"

/-- The record of a rule's failure (`RuleEvaluationError`), which is kept in words. -/
structure RuleError extends RuleFailure where
  message : String
  worded : toRuleFailure.wording = .ok message
  deriving DecidableEq, Repr

/-- Records a rule's failure, when there are words for it. -/
def RuleFailure.recorded (f : RuleFailure) : Except LongInteger RuleError :=
  match h : f.wording with
  | .ok message => .ok ⟨f, message, h⟩
  | .error e => .error e

/-- A severity that has no rank. -/
structure Unranked where
  severity : String
  deriving DecidableEq, Repr

/-- The wording of the refusal. -/
def Unranked.message (u : Unranked) : String := quoted u.severity

/-- The severity with a name that has to have a rank. -/
def Severity.ofName (s : String) : Except Unranked Severity :=
  (Severity.ofName? s).elim (.error ⟨s⟩) .ok

namespace Finding

def span (f : Finding) : Span := f.place.span

/-- The severity of a finding, when it is a known one. -/
def severity? (f : Finding) : Option Severity := Severity.ofName? f.severity

/-- The rank of a finding's severity; an unknown one counts as the mildest. -/
def rank (f : Finding) : Nat := (f.severity?.map Severity.rank).getD 0

/-- Report order: by file, line, severity (the gravest first), rule, and then what tells two
findings of a rule on a line apart (`Finding.sort_key`). -/
def order (a b : Finding) : Ordering :=
  (compare a.span.file b.span.file).then <|
    (compare a.span.startLine b.span.startLine).then <| (compare b.rank a.rank).then <|
      (compare a.ruleId b.ruleId).then <| (compare a.span.startCol b.span.startCol).then <|
        (compare a.span.endLine b.span.endLine).then <|
          (compare a.span.endCol b.span.endCol).then <| compare a.message b.message

/-- The first finding whose severity has no rank. -/
def firstUnranked? (fs : List Finding) : Option Unranked :=
  (fs.find? fun f => f.severity?.isNone).map fun f => ⟨f.severity⟩

/-- Findings in report order, which needs every severity to have a rank. -/
def sort (fs : List Finding) : Except Unranked (List Finding) :=
  match firstUnranked? fs with
  | some u => .error u
  | none => .ok (fs.mergeSort fun a b => (order a b).isLE)

end Finding

end ComponentLint

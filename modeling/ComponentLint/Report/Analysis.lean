-- The analysis of a unit: one walk over its nodes, on which each node is
-- offered to the rules for its kind when it is entered and when it is left. A
-- check that fails is put on record; when the record cannot be written, the
-- whole analysis ends there.
import ComponentLint.Report.Finding

namespace ComponentLint

open ComponentLint.Number

/-- What a walk has brought to light so far (`Analysis`). -/
structure Analysis where
  findings : List Finding := []
  errors : List RuleError := []
  visited : Nat := 0
  deriving DecidableEq, Repr

namespace ActiveRule

/-- A remark as a finding of the rule. -/
def finding (r : ActiveRule) (remark : Remark) : Finding :=
  ⟨r.id, r.severity, Place.ofSpan remark.span, remark.message, remark.suggestion⟩

/-- What the rule brings to light at a node. A check that fails there counts as one failure and
nothing else (`_evaluate`). -/
def evaluate (r : ActiveRule) (m : Model) (v : Tree.Visit (Entry Kind)) :
    Except LongInteger Analysis :=
  match r.descriptor.check with
  | none => .ok {}
  | some check =>
    let produced := check ⟨v.tree, v.ancestors, m, r.params⟩
    match produced.failure with
    | some failure => do
      let error ← RuleFailure.recorded ⟨r.id, Place.ofSpan v.tree.span, failure⟩
      return { errors := [error] }
    | none => .ok { findings := produced.remarks.map r.finding }

end ActiveRule

namespace Analysis

/-- What two parts of a walk brought to light together. -/
def append (a b : Analysis) : Analysis :=
  ⟨a.findings ++ b.findings, a.errors ++ b.errors, a.visited + b.visited⟩

/-- Offers a node to some rules. -/
def offer (m : Model) (v : Tree.Visit (Entry Kind)) (rules : List ActiveRule) (acc : Analysis) :
    Except LongInteger Analysis :=
  rules.foldlM (fun acc r => do return acc.append (← r.evaluate m v)) acc

/-- A step of the walk. -/
inductive Task where
  | enter (visit : Tree.Visit (Entry Kind))
  | leave (visit : Tree.Visit (Entry Kind))

/-- How many steps come from a step. -/
def Task.weight : Task → Nat
  | .enter v => 2 * v.tree.size
  | .leave _ => 1

/-- How many steps come from an agenda. -/
def pending : List Task → Nat
  | [] => 0
  | t :: rest => t.weight + pending rest

theorem pending_append (a b : List Task) : pending (a ++ b) = pending a + pending b := by
  induction a with
  | nil => simp [pending]
  | cons t a ih =>
    simp only [List.cons_append, pending, ih]
    omega

/-- The steps that enter the children of a node. -/
def below (v : Tree.Visit (Entry Kind)) : List Task :=
  v.tree.children.map fun t => .enter ⟨t, v.ancestors ++ [v.tree]⟩

theorem pending_below (v : Tree.Visit (Entry Kind)) :
    pending (below v) = 2 * Tree.forestSize v.tree.children := by
  unfold below
  induction v.tree.children with
  | nil => rfl
  | cons t ts ih =>
    simp only [List.map_cons, pending, Task.weight, Tree.forestSize, ih]
    omega

/-- Takes the steps of an agenda. A node that was entered is left once its children are done. -/
def run (m : Model) (rs : ActiveRules) : List Task → Analysis → Except LongInteger Analysis
  | [], acc => .ok acc
  | .leave v :: rest, acc => do
    let acc ← offer m v (rs.forNode v.tree.kind .exit) acc
    run m rs rest acc
  | .enter v :: rest, acc => do
    let acc ← offer m v (rs.forNode v.tree.kind .enter) { acc with visited := acc.visited + 1 }
    run m rs (below v ++ .leave v :: rest) acc
termination_by agenda => pending agenda
decreasing_by
  · simp [pending, Task.weight]
  · have h := pending_below v
    have hs := Tree.size_eq v.tree
    simp only [pending_append, pending, Task.weight]
    omega

/-- The analysis of a unit by the rules of a run (`analyze`). -/
def ofModel (m : Model) (rs : ActiveRules) : Except LongInteger Analysis :=
  run m rs (m.roots.map fun t => .enter ⟨t, []⟩) {}

end Analysis

end ComponentLint

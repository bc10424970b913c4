-- The rules of one run, in the order of their ids, with an index that gives
-- the rules for a kind of node and a phase.
import ComponentLint.Rule.Descriptor

namespace ComponentLint

/-- A rule with the severity and the parameters it has in a run (`ActiveRule`). -/
structure ActiveRule where
  descriptor : Descriptor
  severity : String
  params : Entries Value

namespace ActiveRule

def id (r : ActiveRule) : String := r.descriptor.id

/-- Whether the rule looks at nodes of a kind in a phase. -/
def looksAt (r : ActiveRule) (kind : Kind) (phase : Phase) : Bool :=
  r.descriptor.check.isSome && r.descriptor.phase == phase && r.descriptor.kinds.contains kind

end ActiveRule

/-- The rules to ask, by phase and kind of node. -/
abbrev RuleIndex := List ((Phase × Kind) × List ActiveRule)

namespace RuleIndex

/-- The rules listed under a phase and a kind. -/
def get (index : RuleIndex) (key : Phase × Kind) : List ActiveRule := (index.lookup key).getD []

/-- Lists a rule last under a phase and a kind. -/
def add (r : ActiveRule) (key : Phase × Kind) : RuleIndex → RuleIndex
  | [] => [(key, [r])]
  | (k, rules) :: rest =>
    if k = key then (k, rules ++ [r]) :: rest else (k, rules) :: add r key rest

/-- Lists a rule under each of its kinds, if it has a check. -/
def addRule (index : RuleIndex) (r : ActiveRule) : RuleIndex :=
  if r.descriptor.check.isSome then
    r.descriptor.kinds.foldl (fun index kind => add r (r.descriptor.phase, kind) index) index
  else index

/-- The index of several rules. -/
def ofRules (rules : List ActiveRule) : RuleIndex := rules.foldl addRule []

end RuleIndex

/-- The rules of one run (`ActiveRuleSet`). The registered ids include those of rules that are
switched off. -/
structure ActiveRules where
  rules : List ActiveRule
  registered : List String
  index : RuleIndex

namespace ActiveRules

/-- The run of some rules, given in any order. -/
def ofList (rules : List ActiveRule) (registered : List String) : ActiveRules :=
  let sorted := rules.mergeSort fun a b => (compare a.id b.id).isLE
  ⟨sorted, registered ++ sorted.map ActiveRule.id, RuleIndex.ofRules sorted⟩

/-- The rule with a given id, if it is in the run; the last one, should several have it. -/
def get? (rs : ActiveRules) (id : String) : Option ActiveRule :=
  rs.rules.reverse.find? fun r => r.id == id

/-- Whether a rule is in the run. -/
def has (rs : ActiveRules) (id : String) : Bool := (rs.get? id).isSome

/-- Whether a rule exists, in the run or not. -/
def isRegistered (rs : ActiveRules) (id : String) : Bool := rs.registered.contains id

/-- The rules that look at a kind of node in a phase, in the order of their ids (`for_node`). -/
def forNode (rs : ActiveRules) (kind : Kind) (phase : Phase) : List ActiveRule :=
  rs.index.get (phase, kind)

end ActiveRules

end ComponentLint

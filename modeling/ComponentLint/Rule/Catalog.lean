-- The catalog of rules. Each id is registered once; a configuration is
-- resolved against the catalog into the rules of a run, or refused.
import ComponentLint.Rule.Active
import ComponentLint.Rule.Config

namespace ComponentLint

open ComponentLint.Text

/-- Why the catalog refuses. -/
inductive CatalogFault where
  | duplicate (id : String)
  | unregistered (id : String)
  /-- A configuration names a rule that is not in the catalog. -/
  | unknownRule (id : String)
  | undeclared (id name : String) (declared : List String)
  | unfit (id name : String) (why : Unfit)
  deriving DecidableEq, Repr

namespace CatalogFault

/-- The rule a refusal is about. -/
def ruleId : CatalogFault → String
  | duplicate id => id
  | unregistered id => id
  | unknownRule id => id
  | undeclared id _ _ => id
  | unfit id _ _ => id

/-- What the refusal says about the rule. -/
def reason : CatalogFault → String
  | duplicate _ => "rule id is already registered"
  | unregistered _ => "rule id is not registered"
  | unknownRule _ => "configuration references an unregistered rule"
  | undeclared _ name declared =>
    s!"unknown parameter '{name}', declared parameters: " ++ quotedList declared
  | unfit _ name why => why.message name

/-- The text of a refusal. -/
def message (f : CatalogFault) : String := f.ruleId ++ ": " ++ f.reason

end CatalogFault

/-- The known rules, in the order they were registered. -/
structure Catalog where
  descriptors : List Descriptor := []

namespace Catalog

/-- The rule with a given id. -/
def find? (c : Catalog) (id : String) : Option Descriptor := c.descriptors.find? fun d => d.id == id

/-- Whether a rule is registered. -/
def has (c : Catalog) (id : String) : Bool := (c.find? id).isSome

/-- The number of rules. -/
def size (c : Catalog) : Nat := c.descriptors.length

/-- Registers a rule under an id that is still free (`RuleCatalog.register`). -/
def register (c : Catalog) (d : Descriptor) : Except CatalogFault Catalog :=
  if c.has d.id then .error (.duplicate d.id) else .ok ⟨c.descriptors ++ [d]⟩

/-- Registers rules one after the other. -/
def registerAll (c : Catalog) : List Descriptor → Except CatalogFault Catalog
  | [] => .ok c
  | d :: rest => do registerAll (← c.register d) rest

/-- The rule with a given id, or a refusal (`RuleCatalog.get`). -/
def get (c : Catalog) (id : String) : Except CatalogFault Descriptor :=
  (c.find? id).elim (.error (.unregistered id)) .ok

/-- The rules in the order of their ids. -/
def sorted (c : Catalog) : List Descriptor :=
  c.descriptors.mergeSort fun a b => (compare a.id b.id).isLE

/-! ## Resolution -/

/-- The first of some ids, in ascending order, that is not registered. -/
def firstUnknown? (c : Catalog) (ids : List String) : Option String :=
  (ids.mergeSort fun a b => (compare a b).isLE).find? fun id => !c.has id

end Catalog

namespace Descriptor

/-- Puts a value into the domain of a parameter of the rule (`RuleDescriptor.param` and
`ParamSpec.coerce`). -/
def coerce (d : Descriptor) (name : String) (v : Value) : Except (Stop CatalogFault) Value :=
  match d.param? name with
  | none => .error (.refused (.undeclared d.id name d.paramNames))
  | some p => (p.coerce v).mapError (Stop.map (.unfit d.id name))

/-- Sets parameters one after the other. -/
def bind (d : Descriptor) (params : Entries Value) :
    Entries Value → Except (Stop CatalogFault) (Entries Value)
  | [] => .ok params
  | (name, v) :: rest => do
    let w ← d.coerce name v
    d.bind (params.put name w) rest

/-- The rule as its settings make it, none when it is switched off. -/
def activate (d : Descriptor) (config : RuleConfig) :
    Except (Stop CatalogFault) (Option ActiveRule) := do
  let overrides := config.params.mergeSort fun a b => (compare a.1 b.1).isLE
  let params ← d.bind d.defaults overrides
  if config.enabled.getD d.enabled then
    return some ⟨d, config.severity.getD d.severity.name, params⟩
  else return none

end Descriptor

namespace Catalog

/-- The switched-on rules among the given ones, as a configuration makes them. -/
def activateAll (rules : Entries RuleConfig) :
    List Descriptor → Except (Stop CatalogFault) (List ActiveRule)
  | [] => .ok []
  | d :: rest => do
    let first ← d.activate ((rules.get? d.id).getD {})
    return first.toList ++ (← activateAll rules rest)

/-- The rules of a run under a configuration (`RuleCatalog.resolve`). -/
def resolve (c : Catalog) (config : Configuration) : Except (Stop CatalogFault) ActiveRules :=
  match c.firstUnknown? config.rules.names with
  | some id => .error (.refused (.unknownRule id))
  | none => do
    let active ← activateAll config.rules c.sorted
    return ActiveRules.ofList active (c.descriptors.map Descriptor.id)

end Catalog

end ComponentLint

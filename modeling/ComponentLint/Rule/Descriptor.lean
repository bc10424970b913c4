-- The declaration of a rule: its id, what it is about, which nodes it looks
-- at and when, its parameters and its check.
import ComponentLint.Rule.Check
import ComponentLint.Rule.Parameter
import ComponentLint.Rule.Severity
import ComponentLint.Text.Basic

namespace ComponentLint

open ComponentLint.Text

/-! ## Rule ids -/

/-- A small letter or a digit. -/
def isIdChar (c : Char) : Bool := c.isLower || c.isDigit

/-- Groups of small letters and digits joined by single hyphens, the first one starting with a
letter. -/
def isKebab (cs : List Char) : Bool :=
  let groups := List.splitOn '-' cs
  (cs.head?.any Char.isLower) && groups.all fun g => !g.isEmpty && g.all isIdChar

/-- Whether a text can be the id of a rule. One line feed at its end is let through. -/
def isRuleId (s : String) : Bool := isKebab (withoutFinalFeed s.toList)

/-! ## Descriptors -/

/-- A rule. One without a check is reported by the engine itself and only declared here. -/
structure Descriptor where
  id : String
  category : Category
  severity : Severity
  description : String
  kinds : List Kind := []
  check : Option Check := none
  phase : Phase := .enter
  params : List Parameter := []
  enabled : Bool := true
  /-- Every kind is listed once. -/
  kinds_nodup : kinds.Nodup := by decide

/-- Why a rule cannot be declared. -/
inductive DescriptorFault where
  | id (id : String)
  | category (id category : String)
  | severity (id severity : String)
  | phase (id phase : String)
  | kinds (id : String) (unknown : List String)
  deriving DecidableEq, Repr

/-- The wording of a fault. -/
def DescriptorFault.message : DescriptorFault → String
  | .id rule => s!"invalid rule id '{rule}', expected kebab-case"
  | .category rule word =>
    s!"{rule}: invalid category '{word}', must be one of "
      ++ quotedList (Category.all.map Category.name)
  | .severity rule word =>
    s!"{rule}: invalid severity '{word}', must be one of "
      ++ quotedList (Severity.all.map Severity.name)
  | .phase rule word => s!"{rule}: invalid phase '{word}'"
  | .kinds rule unknown => s!"{rule}: unknown node kinds " ++ quotedList unknown

/-- A rule as it was submitted, its words not yet looked up. -/
structure RuleDraft where
  id : String
  category : String
  severity : String
  description : String := ""
  kinds : List String := []
  check : Option Check := none
  phase : String := "enter"
  params : List Parameter := []
  enabled : Bool := true

/-- Texts in ascending order, each once. -/
def sortedDistinct (names : List String) : List String :=
  (names.mergeSort fun a b => (compare a b).isLE).foldr
    (fun name acc => if acc.head? = some name then acc else name :: acc) []

namespace Descriptor

/-- Declares a rule. -/
def declare (d : RuleDraft) : Except DescriptorFault Descriptor := do
  unless isRuleId d.id do throw (.id d.id)
  let some category := Category.ofName? d.category | throw (.category d.id d.category)
  let some severity := Severity.ofName? d.severity | throw (.severity d.id d.severity)
  let some phase := Phase.ofName? d.phase | throw (.phase d.id d.phase)
  let unknown := d.kinds.filter fun k => (Kind.ofName? k).isNone
  unless unknown.isEmpty do throw (.kinds d.id (sortedDistinct unknown))
  return {
    id := d.id, category, severity, description := d.description
    kinds := Kind.all.filter fun k => d.kinds.contains k.name
    check := d.check, phase, params := d.params, enabled := d.enabled
    kinds_nodup := List.Nodup.sublist List.filter_sublist (by decide) }

/-- The parameter with a given name. -/
def param? (d : Descriptor) (name : String) : Option Parameter :=
  d.params.find? fun p => p.name == name

/-- The names of the parameters in ascending order. -/
def paramNames (d : Descriptor) : List String :=
  (d.params.map Parameter.name).mergeSort fun a b => (compare a b).isLE

/-- The parameters at their defaults. -/
def defaults (d : Descriptor) : Entries Value :=
  Entries.ofList (d.params.map fun p => (p.name, p.default))

end Descriptor

end ComponentLint

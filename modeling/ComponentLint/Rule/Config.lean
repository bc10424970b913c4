-- Settings of rules, and the ways a configuration can be wrong. A setting
-- that is absent is inherited from a weaker layer.
import ComponentLint.Entries
import ComponentLint.Rule.Severity
import ComponentLint.Text.Quoted
import ComponentLint.Value.Text

namespace ComponentLint

open ComponentLint.Text

/-! ## Settings of one rule -/

/-- The settings of one rule. -/
structure RuleConfig where
  enabled : Option Bool := none
  severity : Option String := none
  params : Entries Value := []
  deriving Repr

/-- Settings with stronger ones laid over them, field by field (`RuleConfig.merged`). -/
def RuleConfig.merged (base stronger : RuleConfig) : RuleConfig where
  enabled := stronger.enabled.or base.enabled
  severity := stronger.severity.or base.severity
  params := base.params.putAll stronger.params

/-! ## Faults -/

/-- What is wrong with a configuration or with one of its entries; a value stands there as it is
written. -/
inductive ConfigCause where
  | unreadable (reason : String)
  | notYaml
  | notMapping
  | version (written : String)
  | failOn (written : String)
  | rulesForm
  | entryForm (typeName : String)
  | enabled (written : String)
  | severity (written : String)
  /-- A fault that is already in words. -/
  | stated (text : String)
  deriving DecidableEq, Repr

/-- The wording of a cause. -/
def ConfigCause.message : ConfigCause → String
  | unreadable reason => s!"cannot read configuration: {reason}"
  | notYaml => "invalid YAML"
  | notMapping => "configuration must be a YAML mapping"
  | version w => s!"unsupported version {w}, expected one of [1]"
  | failOn w =>
    s!"invalid fail_on {w}, must be one of " ++ quotedList (Severity.all.map Severity.name)
  | rulesForm => "'rules' must be a mapping"
  | entryForm typeName =>
    s!"entry must be a mapping, a boolean, or a severity, got {typeName}"
  | enabled w => s!"'enabled' must be true or false, got {w}"
  | severity w =>
    s!"invalid severity {w}, must be one of " ++ quotedList (Severity.all.map Severity.name)
  | stated text => text

/-- A fault in a configuration, with where it is (`ConfigParseError`). -/
structure ConfigError where
  cause : ConfigCause
  ruleId : Option String := none
  source : String := ""
  deriving DecidableEq, Repr

/-- The text of a fault: where it is and what is wrong. -/
def ConfigError.toText (e : ConfigError) : String :=
  let place := match e.ruleId with
    | some id => if e.source.isEmpty then s!"rules.{id}" else s!"{e.source}: rules.{id}"
    | none => e.source
  if place.isEmpty then e.cause.message else s!"{place}: {e.cause.message}"

/-! ## Configurations -/

/-- One configuration document and where it comes from. -/
structure Layer where
  source : String
  data : Value
  deriving Repr

/-- What all layers together say. -/
structure Configuration where
  rules : Entries RuleConfig := []
  failOn : Severity := .error
  errors : List ConfigError := []
  sources : List String := []
  deriving Repr

end ComponentLint

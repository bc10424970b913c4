-- Configuration layers: what each says is laid over what the weaker ones
-- say, starting with the defaults of the catalog. A malformed entry is noted
-- and has no effect.
import ComponentLint.Rule.Catalog

namespace ComponentLint

open ComponentLint.Number ComponentLint.Text

/-! ## One entry -/

/-- A value as a word without the blanks around it, in small letters. -/
def plainWord (v : Value) : Except LongInteger String := do
  return lowerText (trimText (← v.toText))

/-- The severity a value names; `warn` is short for `warning`. -/
def severityOf? (v : Value) : Except LongInteger (Option Severity) := do
  let word ← plainWord v
  return Severity.ofName? (if word = "warn" then "warning" else word)

/-- Notes a value as the cause of a fault, which it is written for. -/
def ConfigCause.refuse {α : Type} (why : String → ConfigCause) (v : Value) :
    Except (Stop ConfigCause) α := do
  let written ← Stop.writing v.written
  throw (.refused (why written))

/-- The severity field of an entry. -/
def readSeverity : Value → Except (Stop ConfigCause) (Option String)
  | .null => .ok none
  | v => do
    match ← Stop.writing (severityOf? v) with
    | some s => return some s.name
    | none => ConfigCause.refuse .severity v

/-- The switch of an entry. -/
def readEnabled : Value → Except (Stop ConfigCause) (Option Bool)
  | .null => .ok none
  | .bool b => .ok (some b)
  | v => ConfigCause.refuse .enabled v

/-- Whether a key of an entry names a setting that every rule has. -/
def isReserved (key : Value) : Bool := key.isText "enabled" || key.isText "severity"

/-- The parameters of an entry: whatever is not reserved. -/
def readParams (entries : List (Value × Value)) : Except LongInteger (Entries Value) := do
  let given ← (entries.filter fun e => !isReserved e.1).mapM fun e => do
    return (← e.1.toText, e.2)
  return Entries.ofList given

/-- The settings of an entry: nothing, a switch, a severity, or a mapping (`_parse_rule_entry`). -/
def RuleConfig.ofValue (v : Value) : Except (Stop ConfigCause) RuleConfig :=
  match v.unfold with
  | .null => .ok {}
  | .bool b => .ok { enabled := some b }
  | .str s => do return { severity := ← readSeverity (.str s) }
  | .map entries => do
    let enabled ← readEnabled (v.field "enabled")
    let severity ← readSeverity (v.field "severity")
    let params ← Stop.writing (readParams entries)
    return { enabled, severity, params }
  | _ => .error (.refused (.entryForm v.shortTypeName))

/-! ## Layers -/

namespace Configuration

/-- The defaults of a catalog. -/
def ofCatalog (c : Catalog) : Configuration where
  rules := c.sorted.map fun d =>
    (d.id, { enabled := some d.enabled, severity := some d.severity.name, params := d.defaults })

/-- Notes a fault. -/
def note (config : Configuration) (e : ConfigError) : Configuration :=
  { config with errors := config.errors ++ [e] }

/-- Lays settings of one rule over those it has. -/
def override (config : Configuration) (id : String) (stronger : RuleConfig) : Configuration :=
  let base := (config.rules.get? id).getD {}
  { config with rules := config.rules.put id (base.merged stronger) }

/-- Lays one entry of a layer over a configuration. -/
def addEntry (source : String) (config : Configuration) (entry : Value × Value) :
    Except LongInteger Configuration := do
  let id ← entry.1.toText
  match RuleConfig.ofValue entry.2 with
  | .ok stronger => return config.override id stronger
  | .error (.refused cause) => return config.note ⟨cause, some id, source⟩
  | .error .longInteger => throw ⟨⟩

/-- Lays the threshold of a layer over a configuration. -/
def addFailOn (source : String) (config : Configuration) (v : Value) :
    Except LongInteger Configuration :=
  match v with
  | .null => .ok config
  | v => do
    match Severity.ofName? (← plainWord v) with
    | some s => return { config with failOn := s }
    | none => return config.note ⟨.failOn (← v.written), none, source⟩

/-- Lays the rules of a layer over a configuration. -/
def addRules (source : String) (config : Configuration) (v : Value) :
    Except LongInteger Configuration :=
  match v.unfold with
  | .map entries => entries.foldlM (addEntry source) config
  | _ => .ok (if v.truthy then config.note ⟨.rulesForm, none, source⟩ else config)

/-- Lays a layer over a configuration. -/
def addLayer (config : Configuration) (layer : Layer) : Except LongInteger Configuration := do
  let config := { config with sources := config.sources ++ [layer.source] }
  let config ← addFailOn layer.source config (layer.data.field "fail_on")
  addRules layer.source config (layer.data.field "rules")

/-- What a catalog and the layers over it, weakest first, say together
(`resolve_configuration`). -/
def ofLayers (c : Catalog) (layers : List Layer) : Except LongInteger Configuration :=
  layers.foldlM addLayer (ofCatalog c)

end Configuration

end ComponentLint

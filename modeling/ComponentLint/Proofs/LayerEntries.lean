-- What one layer says: which entries it has, what each of them gives and what
-- is wrong with it, and how the layer changes a configuration. A malformed
-- part leaves a fault and nothing else. All of this is read off the layer as
-- far as what has to be written for it is short enough.
import ComponentLint.Proofs.StoredEntries
import ComponentLint.Proofs.WrittenIntegers
import ComponentLint.Rule.Layer

namespace ComponentLint

open ComponentLint.Number ComponentLint.Text

/-! ## Readings -/

/-- What reading comes to when there may be a fault in what is read, unless an integer is too long
for it. -/
def reading {α : Type} (legible : Bool) (fault : Option ConfigCause) (result : α) :
    Except (Stop ConfigCause) α :=
  if legible then fault.elim (.ok result) fun cause => .error (.refused cause)
  else .error .longInteger

theorem writing_unlessLong {α : Type} (short : Bool) (a : α) :
    Stop.writing (unlessLong short a) = reading short none a := by
  cases short <;> rfl

theorem ConfigCause.refuse_eq {α : Type} (why : String → ConfigCause) (v : Value) (result : α) :
    refuse why v = reading v.writable (some (why v.shown)) result := by
  unfold refuse
  rw [v.written_eq, writing_unlessLong]
  cases v.writable <;> rfl

/-- A value as a word without the blanks around it, in small letters. -/
def Value.plain (v : Value) : String := lowerText (trimText v.words)

/-- The severity that a value names. -/
def Value.severity? (v : Value) : Option Severity :=
  Severity.ofName? (if v.plain = "warn" then "warning" else v.plain)

theorem plainWord_eq (v : Value) : plainWord v = unlessLong v.writable v.plain := by
  unfold plainWord
  rw [v.toText_eq]
  cases v.writable <;> rfl

theorem severityOf?_eq (v : Value) : severityOf? v = unlessLong v.writable v.severity? := by
  unfold severityOf?
  rw [plainWord_eq]
  cases v.writable <;> rfl

/-! ## What an entry says -/

namespace RuleConfig

/-- The truth value that a field holds. -/
def switch? : Value → Option Bool
  | .bool b => some b
  | _ => none

/-- The severity that a field names; an absent one names none. -/
def named? : Value → Option Severity
  | .null => none
  | v => v.severity?

/-- Why a switch is malformed: it is there and no truth value. -/
def enabledFault? : Value → Option ConfigCause
  | .null => none
  | v => (switch? v).elim (some (.enabled v.shown)) fun _ => none

/-- Why a severity is malformed: it is there and names none. -/
def severityFault? : Value → Option ConfigCause
  | .null => none
  | v => (named? v).elim (some (.severity v.shown)) fun _ => none

/-- Why the value of an entry is malformed. A well-formed one is nothing, a switch, the name of a
severity, or a mapping whose switch and severity are well formed. -/
def fault? (v : Value) : Option ConfigCause :=
  match v.unfold with
  | .null => none
  | .bool _ => none
  | .str s => severityFault? (.str s)
  | .map _ => (enabledFault? (v.field "enabled")).or (severityFault? (v.field "severity"))
  | _ => some (.entryForm v.shortTypeName)

/-- Whether the keys of the parameters of an entry can be written. -/
def keysLegible (entries : List (Value × Value)) : Bool :=
  (entries.filter fun e => !isReserved e.1).all fun e => e.1.writable

/-- Whether the value of an entry can be read: what is in it can be written, as far as it is read. A
mapping is read up to its first fault. -/
def legible (v : Value) : Bool :=
  match v.unfold with
  | .map entries =>
    (v.field "enabled").writable && ((enabledFault? (v.field "enabled")).isSome ||
      (v.field "severity").writable && ((severityFault? (v.field "severity")).isSome ||
        keysLegible entries))
  | _ => true

/-- The switch that an entry sets. -/
def givenEnabled (v : Value) : Option Bool :=
  match v.unfold with
  | .bool b => some b
  | .map _ => switch? (v.field "enabled")
  | _ => none

/-- The severity that an entry sets. -/
def givenSeverity (v : Value) : Option Severity :=
  match v.unfold with
  | .str s => named? (.str s)
  | .map _ => named? (v.field "severity")
  | _ => none

/-- The value that an entry sets a parameter to: the last one under a key with the text of its
name, of the keys that are not reserved. -/
def givenParam (name : String) (v : Value) : Option Value :=
  match v.unfold with
  | .map entries =>
    lastWord (fun e => if !isReserved e.1 && e.1.words == name then some e.2 else none) entries
  | _ => none

/-- The parameters among the fields of an entry. -/
def paramsOf (entries : List (Value × Value)) : Entries Value :=
  Entries.ofList <| (entries.filter fun e => !isReserved e.1).map fun e => (e.1.words, e.2)

/-- The settings that an entry gives. -/
def given (v : Value) : RuleConfig where
  enabled := givenEnabled v
  severity := (givenSeverity v).map Severity.name
  params :=
    match v.unfold with
    | .map entries => paramsOf entries
    | _ => {}

theorem readParams_eq (entries : List (Value × Value)) :
    readParams entries = unlessLong (keysLegible entries) (paramsOf entries) := by
  have hentry : ∀ e : Value × Value, (do return (← e.1.toText, e.2)) =
      unlessLong e.1.writable (e.1.words, e.2) := by
    intro e
    rw [e.1.toText_eq, unlessLong_bind_pure]
  unfold readParams
  rw [funext hentry, mapM_unlessLong, unlessLong_bind_pure]
  rfl

theorem get?_paramsOf (entries : List (Value × Value)) (name : String) :
    (paramsOf entries).get? name = lastWord (fun e =>
      if !isReserved e.1 && e.1.words == name then some e.2 else none) entries := by
  unfold paramsOf
  rw [Entries.get?_ofList, lastWord_map_filter]
  congr
  funext e
  by_cases hreserved : isReserved e.1
  · simp [hreserved]
  · simp [hreserved, Entries.storedAs]

theorem get?_params_given (v : Value) (name : String) :
    (given v).params.get? name = givenParam name v := by
  unfold given givenParam
  cases v.unfold with
  | map entries => exact get?_paramsOf entries name
  | _ => rfl

theorem nodup_names_given (v : Value) : (given v).params.names.Nodup := by
  have hempty : (Entries.names ([] : Entries Value)).Nodup := List.nodup_nil
  unfold given
  cases v.unfold with
  | map entries => exact Entries.nodup_names_putAll hempty _
  | _ => exact hempty

theorem readEnabled_eq (v : Value) :
    readEnabled v = reading v.writable (enabledFault? v) (switch? v) := by
  cases v with
  | null => rfl
  | bool b => rfl
  | _ => exact ConfigCause.refuse_eq .enabled _ none

theorem readSeverity_eq (v : Value) :
    readSeverity v = reading v.writable (severityFault? v) ((named? v).map Severity.name) := by
  have hsome : v ≠ .null → readSeverity v =
      reading v.writable (v.severity?.elim (some (.severity v.shown)) fun _ => none)
        (v.severity?.map Severity.name) := by
    intro hv
    have hrefuse := ConfigCause.refuse_eq .severity v (none : Option String)
    unfold readSeverity
    split
    · exact absurd rfl hv
    · rw [severityOf?_eq, writing_unlessLong]
      cases hwritable : v.writable with
      | false => rfl
      | true =>
        rw [hwritable] at hrefuse
        cases hseverity : v.severity? with
        | some severity => rfl
        | none => exact hrefuse
  cases v with
  | null => rfl
  | _ => exact hsome (by simp)

/-- The value of an entry is refused for what is wrong with it, and else read to the settings it
gives. -/
theorem ofValue_eq (v : Value) : ofValue v = reading (legible v) (fault? v) (given v) := by
  unfold ofValue legible fault? given givenEnabled givenSeverity
  cases hv : v.unfold with
  | null => rfl
  | bool b => rfl
  | str s =>
    dsimp only
    rw [readSeverity_eq]
    change (reading true _ _ >>= _) = _
    cases severityFault? (.str s) <;> rfl
  | map entries =>
    dsimp only
    rw [readEnabled_eq, readSeverity_eq, readParams_eq, writing_unlessLong]
    cases (v.field "enabled").writable <;> cases enabledFault? (v.field "enabled") <;>
      cases (v.field "severity").writable <;> cases severityFault? (v.field "severity") <;>
        cases keysLegible entries <;> rfl
  | _ => rfl

end RuleConfig

/-! ## What a layer says -/

namespace Layer

/-- The entries of a layer in document order; there are none unless its rules are a mapping. -/
def entries (l : Layer) : List (Value × Value) :=
  match (l.data.field "rules").unfold with
  | .map entries => entries
  | _ => []

/-- The threshold that a layer sets. -/
def threshold? (l : Layer) : Option Severity :=
  match l.data.field "fail_on" with
  | .null => none
  | v => Severity.ofName? v.plain

/-- The fault in the threshold of a layer: it is there and is no severity. -/
def thresholdFault? (l : Layer) : Option ConfigError :=
  match l.data.field "fail_on" with
  | .null => none
  | v => (Severity.ofName? v.plain).elim (some ⟨.failOn v.shown, none, l.source⟩) fun _ => none

/-- The fault in an entry of a layer. -/
def entryFault? (source : String) (e : Value × Value) : Option ConfigError :=
  (RuleConfig.fault? e.2).map fun cause => ⟨cause, some e.1.words, source⟩

theorem entryFault?_of_fault {source : String} {e : Value × Value} {cause : ConfigCause}
    (h : RuleConfig.fault? e.2 = some cause) :
    entryFault? source e = some ⟨cause, some e.1.words, source⟩ := by
  rw [entryFault?, h, Option.map_some]

/-- The faults in the rules of a layer: one for each malformed entry, in document order, or one for
rules that are neither a mapping nor count as absent. -/
def rulesFaults (l : Layer) : List ConfigError :=
  match (l.data.field "rules").unfold with
  | .map entries => entries.filterMap (entryFault? l.source)
  | _ => if (l.data.field "rules").truthy then [⟨.rulesForm, none, l.source⟩] else []

theorem rulesFaults_of_mem {l : Layer} {e : Value × Value} (h : e ∈ l.entries) :
    l.rulesFaults = l.entries.filterMap (entryFault? l.source) := by
  unfold entries at h
  unfold rulesFaults entries
  split
  · rfl
  · rename_i hrules
    cases hunfold : (l.data.field "rules").unfold <;> simp_all

/-- The faults in a layer: that of the threshold first, then those of the rules. -/
def faults (l : Layer) : List ConfigError := l.thresholdFault?.toList ++ l.rulesFaults

/-- Whether an entry of a layer can be read. -/
def entryLegible (e : Value × Value) : Bool := e.1.writable && RuleConfig.legible e.2

/-- Whether a layer can be read: its threshold, the keys of its entries and what is read of their
values can be written. -/
def legible (l : Layer) : Bool := (l.data.field "fail_on").writable && l.entries.all entryLegible

end Layer

/-- The rules of a configuration with one entry laid over them; a malformed one has no effect. -/
def applyEntry (rules : Entries RuleConfig) (e : Value × Value) : Entries RuleConfig :=
  match RuleConfig.fault? e.2 with
  | none =>
    rules.put e.1.words (((rules.get? e.1.words).getD {}).merged (RuleConfig.given e.2))
  | some _ => rules

theorem applyEntry_of_fault {e : Value × Value} {cause : ConfigCause}
    (h : RuleConfig.fault? e.2 = some cause) (rules : Entries RuleConfig) :
    applyEntry rules e = rules := by
  rw [applyEntry, h]

namespace Configuration

/-- One entry of a layer: it is laid over the rules, and its fault is noted. -/
def withEntry (source : String) (config : Configuration) (e : Value × Value) : Configuration :=
  { config with
    rules := applyEntry config.rules e
    errors := config.errors ++ (Layer.entryFault? source e).toList }

theorem addEntry_eq (source : String) (config : Configuration) (e : Value × Value) :
    config.addEntry source e = unlessLong (Layer.entryLegible e) (config.withEntry source e) := by
  unfold addEntry Layer.entryLegible withEntry applyEntry Layer.entryFault?
  rw [e.1.toText_eq, RuleConfig.ofValue_eq]
  cases e.1.writable with
  | false => rfl
  | true =>
    cases RuleConfig.legible e.2 with
    | false => rfl
    | true =>
      cases RuleConfig.fault? e.2 with
      | some cause => rfl
      | none => simp [reading, unlessLong, override, bind, Except.bind, pure, Except.pure]

theorem foldl_withEntry (source : String) (entries : List (Value × Value))
    (config : Configuration) :
    entries.foldl (withEntry source) config =
      { config with
        rules := entries.foldl applyEntry config.rules
        errors := config.errors ++ entries.filterMap (Layer.entryFault? source) } := by
  induction entries generalizing config with
  | nil => simp
  | cons e entries ih =>
    rw [List.foldl_cons, ih, withEntry]
    cases hfault : Layer.entryFault? source e <;> simp [hfault]

theorem addFailOn_eq (l : Layer) (config : Configuration) :
    addFailOn l.source config (l.data.field "fail_on") =
      unlessLong (l.data.field "fail_on").writable
        { config with
          failOn := l.threshold?.getD config.failOn
          errors := config.errors ++ l.thresholdFault?.toList } := by
  have hsome : ∀ v : Value, v ≠ .null → addFailOn l.source config v =
      unlessLong v.writable
        { config with
          failOn := (Severity.ofName? v.plain).getD config.failOn
          errors := config.errors ++ ((Severity.ofName? v.plain).elim
            (some ⟨.failOn v.shown, none, l.source⟩) fun _ => none).toList } := by
    intro v hv
    unfold addFailOn
    split
    · exact absurd rfl hv
    · rw [plainWord_eq, v.written_eq]
      generalize v.plain = word
      cases v.writable with
      | false => rfl
      | true =>
        simp only [unlessLong_true, bind, Except.bind]
        cases Severity.ofName? word <;> simp [note, pure, Except.pure]
  unfold Layer.threshold? Layer.thresholdFault?
  generalize l.data.field "fail_on" = v at *
  cases v with
  | null => simp [addFailOn, Value.writable, Value.writableIn, unlessLong]
  | _ => exact hsome _ (by simp)

theorem addRules_eq (l : Layer) (config : Configuration) :
    addRules l.source config (l.data.field "rules") =
      unlessLong (l.entries.all Layer.entryLegible)
        { config with
          rules := l.entries.foldl applyEntry config.rules
          errors := config.errors ++ l.rulesFaults } := by
  unfold addRules Layer.entries Layer.rulesFaults
  cases hrules : (l.data.field "rules").unfold with
  | map entries =>
    dsimp only
    rw [funext₂ (addEntry_eq l.source), foldlM_unlessLong, foldl_withEntry]
  | _ =>
    dsimp only
    split
    · rfl
    · simp [unlessLong]

/-- One layer: its entries are laid over the rules in document order, its threshold replaces the
one before, and its faults are noted. -/
def withLayer (config : Configuration) (l : Layer) : Configuration where
  rules := l.entries.foldl applyEntry config.rules
  failOn := l.threshold?.getD config.failOn
  errors := config.errors ++ l.faults
  sources := config.sources ++ [l.source]

theorem addLayer_eq (config : Configuration) (l : Layer) :
    config.addLayer l = unlessLong l.legible (config.withLayer l) := by
  unfold addLayer
  dsimp only
  rw [addFailOn_eq, unlessLong_bind, addRules_eq, Layer.legible, withLayer, Layer.faults]
  cases (l.data.field "fail_on").writable with
  | false => rfl
  | true => rw [if_pos rfl, Bool.true_and, List.append_assoc]

/-- What layers over a catalog, the weakest first, say together when all of them can be read. -/
def laid (c : Catalog) (layers : List Layer) : Configuration where
  rules := (layers.flatMap Layer.entries).foldl applyEntry (ofCatalog c).rules
  failOn := (lastWord Layer.threshold? layers).getD .error
  errors := layers.flatMap Layer.faults
  sources := layers.map Layer.source

/-- All layers: one after the other. -/
theorem foldl_withLayer (layers : List Layer) (config : Configuration) :
    layers.foldl withLayer config =
      { rules := (layers.flatMap Layer.entries).foldl applyEntry config.rules
        failOn := (lastWord Layer.threshold? layers).getD config.failOn
        errors := config.errors ++ layers.flatMap Layer.faults
        sources := config.sources ++ layers.map Layer.source } := by
  induction layers generalizing config with
  | nil => simp [lastWord]
  | cons l layers ih =>
    rw [List.foldl_cons, ih, withLayer, lastWord_cons]
    simp only [List.flatMap_cons, List.foldl_append, List.append_assoc, List.map_cons,
      List.singleton_append]
    cases lastWord Layer.threshold? layers <;> rfl

/-- Layers that can all be read give a configuration, and other layers none. -/
theorem ofLayers_eq (c : Catalog) (layers : List Layer) :
    ofLayers c layers = unlessLong (layers.all Layer.legible) (laid c layers) := by
  unfold ofLayers
  rw [funext₂ addLayer_eq, foldlM_unlessLong, foldl_withLayer]
  simp [laid, ofCatalog]

theorem eq_laid {c : Catalog} {layers : List Layer} {config : Configuration}
    (h : ofLayers c layers = .ok config) : config = laid c layers := by
  rw [ofLayers_eq, unlessLong_eq_ok_iff] at h
  exact h.2.symm

end Configuration

end ComponentLint

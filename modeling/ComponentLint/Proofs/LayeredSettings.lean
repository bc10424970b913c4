-- What layers say together. Each field of a rule has the value that the last
-- well-formed entry for the rule gives it, and else its default. A malformed
-- entry can be taken out of its layer, and only its fault goes with it.
import ComponentLint.Proofs.LayerEntries
import ComponentLint.Proofs.SourceEdits
import ComponentLint.Proofs.StableSort
import ComponentLint.Check.Standard

namespace ComponentLint

/-! ## Fields of a rule -/

namespace RuleConfig

/-- A field of settings that is inherited: empty settings leave it open, and of settings laid over
others the stronger ones decide it, unless they leave it open. An entry answers what it holds. -/
structure Inherited {β : Type} (field : RuleConfig → Option β) (answer : Value → Option β) :
    Prop where
  empty : field {} = none
  merged : ∀ base stronger, stronger.params.names.Nodup →
    field (base.merged stronger) = (field stronger).or (field base)
  given : ∀ v, field (given v) = answer v

theorem inherited_enabled : Inherited enabled givenEnabled :=
  ⟨rfl, fun _ _ _ => rfl, fun _ => rfl⟩

theorem inherited_severity : Inherited severity fun v => (givenSeverity v).map Severity.name :=
  ⟨rfl, fun _ _ _ => rfl, fun _ => rfl⟩

theorem inherited_param (name : String) :
    Inherited (fun config => config.params.get? name) (givenParam name) := by
  refine ⟨rfl, fun base stronger hdistinct => ?_, fun v => get?_params_given v name⟩
  rw [merged, Entries.get?_putAll, Entries.lastWord_storedAs hdistinct]

end RuleConfig

/-- Whether an entry is a well-formed one for a rule; keys are compared by their text. -/
def isFor (id : String) (e : Value × Value) : Bool :=
  e.1.words == id && (RuleConfig.fault? e.2).isNone

/-- The values of the well-formed entries for a rule, in layer order and then document order. -/
def wellFormedFor (id : String) (layers : List Layer) : List Value :=
  ((layers.flatMap Layer.entries).filter (isFor id)).map Prod.snd

section

variable {β : Type} {field : RuleConfig → Option β} {answer : Value → Option β}
  (h : RuleConfig.Inherited field answer)
include h

/-- An entry decides a field of a rule if it is a well-formed one for the rule and gives the field,
and changes nothing otherwise. -/
theorem field_applyEntry (rules : Entries RuleConfig) (e : Value × Value) (id : String) :
    ((applyEntry rules e).get? id).bind field =
      (if isFor id e then answer e.2 else none).or ((rules.get? id).bind field) := by
  unfold applyEntry isFor
  cases RuleConfig.fault? e.2 with
  | some cause => simp
  | none =>
    simp only [Entries.get?_put, Option.isNone_none, Bool.and_true, beq_iff_eq]
    by_cases hid : e.1.words = id
    · rw [if_pos hid, if_pos hid, hid, Option.bind_some,
        h.merged _ _ (RuleConfig.nodup_names_given e.2), h.given]
      cases rules.get? id with
      | none => rw [Option.getD_none, h.empty, Option.bind_none]
      | some base => rfl
    · rw [if_neg hid, if_neg hid, Option.none_or]

theorem field_foldl_applyEntry (entries : List (Value × Value)) (rules : Entries RuleConfig)
    (id : String) :
    ((entries.foldl applyEntry rules).get? id).bind field =
      (lastWord answer ((entries.filter (isFor id)).map Prod.snd)).or
        ((rules.get? id).bind field) := by
  rw [lastWord_map_filter]
  induction entries generalizing rules with
  | nil => rfl
  | cons e entries ih =>
    rw [List.foldl_cons, ih, field_applyEntry h, lastWord_cons, Option.or_assoc]

theorem field_laid (c : Catalog) (layers : List Layer) (id : String) :
    ((Configuration.laid c layers).rules.get? id).bind field =
      (lastWord answer (wellFormedFor id layers)).or
        (((Configuration.ofCatalog c).rules.get? id).bind field) :=
  field_foldl_applyEntry h _ _ id

end

/-! ## Defaults -/

/-- The defaults of a catalog are those of its rules, each under its id. -/
theorem Configuration.get?_ofCatalog (c : Catalog) (id : String) :
    (Configuration.ofCatalog c).rules.get? id = (c.find? id).map fun d =>
      { enabled := some d.enabled, severity := some d.severity.name, params := d.defaults } := by
  unfold Configuration.ofCatalog
  dsimp only
  rw [Entries.get?_map]
  congr 1
  -- Of several rules with one id, sorting leaves the first one first.
  have hties : ∀ a b : Descriptor, a.id == id → b.id == id →
      (compareOn Descriptor.id a b).isLE = true := by
    intro a b ha hb
    simp [compareOn, beq_iff_eq.mp ha, beq_iff_eq.mp hb]
  rw [Catalog.find?, ← List.head?_filter, ← List.head?_filter]
  exact congrArg List.head? (filter_mergeSort_cmp hties c.descriptors)

/-! ## A layer without one of its entries -/

namespace Layer

/-- A layer with other entries. -/
def withEntries (entries : List (Value × Value)) (l : Layer) : Layer :=
  match l.data.unfold with
  | .map fields => { l with data := .map (Value.put (.str "rules") (.map entries) fields) }
  | _ => l

/-- A layer without the entry at a place. -/
def withoutEntry (place : Nat) (l : Layer) : Layer := l.withEntries (l.entries.eraseIdx place)

theorem source_withEntries (entries : List (Value × Value)) (l : Layer) :
    (l.withEntries entries).source = l.source := by
  unfold withEntries
  split
  · rfl
  · rfl

/-- A layer that has an entry is a mapping. -/
theorem unfold_data_of_mem {l : Layer} {e : Value × Value} (h : e ∈ l.entries) :
    ∃ fields, l.data.unfold = .map fields := by
  cases hdata : l.data.unfold with
  | map fields => exact ⟨fields, rfl⟩
  | _ =>
    have hfield : l.data.field "rules" = .null := by simp [Value.field, Value.field?, hdata]
    simp [entries, hfield, Value.unfold] at h

section

variable {l : Layer} {fields : List (Value × Value)} (hdata : l.data.unfold = .map fields)
include hdata

theorem data_withEntries (entries : List (Value × Value)) :
    (l.withEntries entries).data = .map (Value.put (.str "rules") (.map entries) fields) := by
  simp only [withEntries, hdata]

theorem field_rules_withEntries (entries : List (Value × Value)) :
    (l.withEntries entries).data.field "rules" = .map entries := by
  rw [data_withEntries hdata]
  exact congrArg (Option.getD · .null) (Value.entry?_put_self _ _ _)

theorem field_withEntries {key : String} (hkey : key ≠ "rules") (entries : List (Value × Value)) :
    (l.withEntries entries).data.field key = l.data.field key := by
  have hfield : l.data.field key = (Value.entry? key fields).getD .null := by
    simp only [Value.field, Value.field?, hdata]
  rw [data_withEntries hdata, hfield]
  exact congrArg (Option.getD · .null) (Value.entry?_put_ne hkey _ _)

theorem threshold?_withEntries (entries : List (Value × Value)) :
    (l.withEntries entries).threshold? = l.threshold? := by
  simp only [threshold?, field_withEntries hdata (by decide : "fail_on" ≠ "rules")]

theorem entries_withEntries (entries : List (Value × Value)) :
    (l.withEntries entries).entries = entries := by
  simp only [Layer.entries, field_rules_withEntries hdata, Value.unfold]

theorem legible_withEntries (entries : List (Value × Value)) :
    (l.withEntries entries).legible =
      ((l.data.field "fail_on").writable && entries.all entryLegible) := by
  simp only [legible, field_withEntries hdata (by decide : "fail_on" ≠ "rules"),
    entries_withEntries hdata]

theorem faults_withEntries (entries : List (Value × Value)) :
    (l.withEntries entries).faults =
      l.thresholdFault?.toList ++ entries.filterMap (entryFault? l.source) := by
  simp only [faults, thresholdFault?, rulesFaults, source_withEntries,
    field_withEntries hdata (by decide : "fail_on" ≠ "rules"), field_rules_withEntries hdata,
    Value.unfold]

end

/-- A malformed entry is one of the entries of its layer and has one of the faults, and the layer
without it has the others. -/
theorem split_withoutEntry {l : Layer} {place : Nat} {e : Value × Value} {cause : ConfigCause}
    (he : l.entries[place]? = some e) (hfault : RuleConfig.fault? e.2 = some cause) :
    ∃ first last earlier later,
      l.entries = first ++ e :: last ∧ (l.withoutEntry place).entries = first ++ last ∧
      l.faults = earlier ++ ⟨cause, some e.1.words, l.source⟩ :: later ∧
      (l.withoutEntry place).faults = earlier ++ later := by
  have hmem : e ∈ l.entries := List.mem_of_getElem? he
  obtain ⟨fields, hdata⟩ := unfold_data_of_mem hmem
  obtain ⟨hplace, rfl⟩ := List.getElem?_eq_some_iff.mp he
  have hsplit : l.entries =
      l.entries.take place ++ l.entries[place] :: l.entries.drop (place + 1) := by
    rw [← List.drop_eq_getElem_cons hplace, List.take_append_drop]
  refine ⟨l.entries.take place, l.entries.drop (place + 1),
    l.thresholdFault?.toList ++ (l.entries.take place).filterMap (entryFault? l.source),
    (l.entries.drop (place + 1)).filterMap (entryFault? l.source), hsplit, ?_, ?_, ?_⟩
  · rw [withoutEntry, entries_withEntries hdata, List.eraseIdx_eq_take_drop_succ]
  · rw [faults, rulesFaults_of_mem hmem]
    nth_rewrite 1 [hsplit]
    rw [List.filterMap_append, List.filterMap_cons_some (entryFault?_of_fault hfault),
      List.append_assoc]
  · rw [withoutEntry, faults_withEntries hdata, List.eraseIdx_eq_take_drop_succ,
      List.filterMap_append, List.append_assoc]

theorem threshold?_withoutEntry {l : Layer} {place : Nat} {e : Value × Value}
    (he : l.entries[place]? = some e) : (l.withoutEntry place).threshold? = l.threshold? := by
  obtain ⟨fields, hdata⟩ := unfold_data_of_mem (List.mem_of_getElem? he)
  exact threshold?_withEntries hdata _

/-- A layer that can be read can be read without one of its entries. -/
theorem legible_withoutEntry {l : Layer} {place : Nat} {e : Value × Value}
    (he : l.entries[place]? = some e) (h : l.legible = true) :
    (l.withoutEntry place).legible = true := by
  obtain ⟨fields, hdata⟩ := unfold_data_of_mem (List.mem_of_getElem? he)
  obtain ⟨hthreshold, hentries⟩ := Bool.and_eq_true_iff.mp h
  rw [withoutEntry, legible_withEntries hdata, hthreshold, Bool.true_and, List.all_eq_true]
  intro e' he'
  exact List.all_eq_true.mp hentries e' (List.mem_of_mem_eraseIdx he')

end Layer

/-! ## The configuration as a whole -/

/-- What a configuration has to be, given a catalog and layers over it, the weakest first. -/
structure Configuration.Follows (c : Catalog) (layers : List Layer) (config : Configuration) :
    Prop where
  /-- A rule is switched as the last entry says that says it, else as it is by default. -/
  enabled : ∀ id, (config.rules.get? id).bind RuleConfig.enabled =
    (lastWord RuleConfig.givenEnabled (wellFormedFor id layers)).or
      ((c.find? id).map Descriptor.enabled)
  /-- So is its severity. -/
  severity : ∀ id, (config.rules.get? id).bind RuleConfig.severity =
    ((lastWord RuleConfig.givenSeverity (wellFormedFor id layers)).or
      ((c.find? id).map Descriptor.severity)).map Severity.name
  /-- And each parameter. -/
  param : ∀ id name, ((config.rules.get? id).bind fun settings => settings.params.get? name) =
    (lastWord (RuleConfig.givenParam name) (wellFormedFor id layers)).or
      ((c.find? id).bind fun d => d.defaults.get? name)
  /-- The threshold is the last one that is a severity, else `error`. -/
  failOn : config.failOn = (lastWord Layer.threshold? layers).getD .error
  /-- The faults stand in the order of the layers, each layer's as `Layer.faults` lists them. -/
  errors : config.errors = layers.flatMap Layer.faults

theorem Configuration.follows_laid (c : Catalog) (layers : List Layer) :
    (laid c layers).Follows c layers := by
  refine ⟨fun id => ?_, fun id => ?_, fun id name => ?_, rfl, rfl⟩
  · rw [field_laid RuleConfig.inherited_enabled, get?_ofCatalog]
    cases c.find? id <;> rfl
  · rw [field_laid RuleConfig.inherited_severity, get?_ofCatalog, Option.map_or, map_lastWord]
    cases c.find? id <;> rfl
  · rw [field_laid (RuleConfig.inherited_param name), get?_ofCatalog]
    cases c.find? id <;> rfl

/-- Taking a malformed entry out of its layer takes out its fault and leaves everything else. -/
theorem Configuration.laid_withoutEntry (c : Catalog) (before after : List Layer) (l : Layer)
    {place : Nat} {e : Value × Value} {cause : ConfigCause} (he : l.entries[place]? = some e)
    (hfault : RuleConfig.fault? e.2 = some cause) :
    let config := laid c (before ++ l :: after)
    let config' := laid c (before ++ l.withoutEntry place :: after)
    config'.rules = config.rules ∧ config'.failOn = config.failOn ∧
      ∃ earlier later,
        config.errors = earlier ++ ⟨cause, some e.1.words, l.source⟩ :: later ∧
        config'.errors = earlier ++ later := by
  intro config config'
  obtain ⟨first, last, earlier, later, hentries, hentries', hfaults, hfaults'⟩ :=
    Layer.split_withoutEntry he hfault
  simp only [config, config', laid]
  refine ⟨?_, ?_, before.flatMap Layer.faults ++ earlier, later ++ after.flatMap Layer.faults,
    ?_, ?_⟩
  · simp only [List.flatMap_append, List.flatMap_cons, hentries, hentries', List.foldl_append,
      List.foldl_cons, applyEntry_of_fault hfault]
  · simp only [lastWord_append, lastWord_cons, Layer.threshold?_withoutEntry he]
  · simp [hfaults]
  · simp [hfaults']

/-- Layers give a configuration as long as what has to be written for it is short enough. Then every
field of every rule has the value that the last well-formed entry gives it, and a malformed entry
leaves its fault and nothing else. -/
theorem layers_have_the_last_word (c : Catalog) (layers : List Layer) :
    ((∃ config, Configuration.ofLayers c layers = .ok config) ↔ ∀ l ∈ layers, l.legible) ∧
    ∀ config, Configuration.ofLayers c layers = .ok config →
      config.Follows c layers ∧
      ∀ before l after place e cause, layers = before ++ l :: after →
        l.entries[place]? = some e → RuleConfig.fault? e.2 = some cause →
        ∃ config',
          Configuration.ofLayers c (before ++ l.withoutEntry place :: after) = .ok config' ∧
          config'.rules = config.rules ∧ config'.failOn = config.failOn ∧
          ∃ earlier later,
            config.errors = earlier ++ ⟨cause, some e.1.words, l.source⟩ :: later ∧
            config'.errors = earlier ++ later := by
  refine ⟨?_, fun config hconfig => ?_⟩
  · rw [Configuration.ofLayers_eq, exists_unlessLong_iff, List.all_eq_true]
  · rw [Configuration.ofLayers_eq, unlessLong_eq_ok_iff] at hconfig
    obtain ⟨hlegible, rfl⟩ := hconfig
    refine ⟨Configuration.follows_laid c layers, ?_⟩
    rintro before l after place e cause rfl he hfault
    have hlegible' : (before ++ l.withoutEntry place :: after).all Layer.legible = true := by
      simp only [List.all_append, List.all_cons, Bool.and_eq_true] at hlegible ⊢
      exact ⟨hlegible.1, Layer.legible_withoutEntry he hlegible.2.1, hlegible.2.2⟩
    refine ⟨_, ?_, Configuration.laid_withoutEntry c before after l he hfault⟩
    rw [Configuration.ofLayers_eq, hlegible']
    rfl

/-- A layer with a malformed entry, and after it a threshold that is none. -/
def rulesFirst : Layer where
  source := "<layer 0>"
  data := .map
    [(.str "rules", .map [(.str "stable-identity", .int 5)]), (.str "fail_on", .str "never")]

theorem legible_rulesFirst : rulesFirst.legible = true := rfl

theorem rulesFirst_has_the_last_word :
    ∃ config config', Configuration.ofLayers .standard [rulesFirst] = .ok config ∧
      Configuration.ofLayers .standard [rulesFirst.withoutEntry 0] = .ok config' ∧
      config'.rules = config.rules ∧ config'.failOn = config.failOn ∧
      ∃ earlier later,
        config.errors =
          earlier ++ ⟨.entryForm "int", some "stable-identity", "<layer 0>"⟩ :: later ∧
        config'.errors = earlier ++ later := by
  obtain ⟨hexists, hconfig⟩ := layers_have_the_last_word .standard [rulesFirst]
  obtain ⟨config, hok⟩ := hexists.mpr (by simpa using legible_rulesFirst)
  obtain ⟨config', hok', hsame⟩ := (hconfig config hok).2 [] rulesFirst [] 0
    (.str "stable-identity", .int 5) (.entryForm "int") rfl rfl rfl
  exact ⟨config, config', hok, hok', hsame⟩

/-- The faults in a layer in the order in which its fields stand. -/
def Layer.faultsAsWritten (l : Layer) : List ConfigError :=
  match l.data.unfold with
  | .map fields => fields.flatMap fun e =>
    if e.1.isText "fail_on" then l.thresholdFault?.toList
    else if e.1.isText "rules" then l.rulesFaults
    else []
  | _ => []

-- The threshold is read before the rules, wherever the two stand.
theorem errors_do_not_follow_the_document :
    ¬ ∀ (c : Catalog) (layers : List Layer) (config : Configuration),
      Configuration.ofLayers c layers = .ok config →
        config.errors = layers.flatMap Layer.faultsAsWritten := by
  intro h
  have hok : Configuration.ofLayers .standard [rulesFirst] =
      .ok (Configuration.laid .standard [rulesFirst]) := by
    rw [Configuration.ofLayers_eq, List.all_cons, legible_rulesFirst]
    rfl
  have hids := congrArg (List.map ConfigError.ruleId) (h .standard [rulesFirst] _ hok)
  have hfaults : (Configuration.laid .standard [rulesFirst]).errors =
      [⟨.failOn "'never'", none, "<layer 0>"⟩,
       ⟨.entryForm "int", some "stable-identity", "<layer 0>"⟩] := rfl
  have hwritten : [rulesFirst].flatMap Layer.faultsAsWritten =
      [⟨.entryForm "int", some "stable-identity", "<layer 0>"⟩,
       ⟨.failOn "'never'", none, "<layer 0>"⟩] := rfl
  rw [hfaults, hwritten] at hids
  simp at hids

end ComponentLint

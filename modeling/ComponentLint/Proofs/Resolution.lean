-- Resolving configurations. One resolves when it names known rules only and
-- gives their parameters values that fit. Whatever the layers hold, the
-- severities that end up in a configuration are names of severities, so every
-- rule of the run has a rank and every unit gets its report, as far as the
-- report can be written.
import ComponentLint.Proofs.Analysis
import ComponentLint.Proofs.LayerEntries
import ComponentLint.Proofs.ReportContents

namespace ComponentLint

/-! ## Settings of one rule -/

theorem Severity.ofName?_name (s : Severity) : Severity.ofName? s.name = some s := by
  cases s <;> decide

namespace RuleConfig

/-- Settings whose severity, if they have one, is the name of a severity. -/
def Ranked (config : RuleConfig) : Prop :=
  ∀ s ∈ config.severity, (Severity.ofName? s).isSome

theorem ranked_given (v : Value) : (given v).Ranked := by
  intro s hs
  obtain ⟨severity, -, rfl⟩ := Option.map_eq_some_iff.mp hs
  simp [Severity.ofName?_name]

theorem Ranked.merged {base stronger : RuleConfig} (hbase : base.Ranked)
    (hstronger : stronger.Ranked) : (base.merged stronger).Ranked := by
  intro s hs
  simp only [RuleConfig.merged, Option.mem_def, Option.or_eq_some_iff] at hs
  rcases hs with hs | ⟨-, hs⟩
  · exact hstronger s hs
  · exact hbase s hs

end RuleConfig

/-! ## Layers -/

namespace Configuration

/-- A configuration in which all severities are names of severities. -/
def Ranked (config : Configuration) : Prop := ∀ e ∈ config.rules, e.2.Ranked

theorem ranked_ofCatalog (c : Catalog) : (ofCatalog c).Ranked := by
  intro e he
  obtain ⟨d, -, rfl⟩ := List.mem_map.mp he
  intro s hs
  cases hs
  simp [Severity.ofName?_name]

theorem ranked_applyEntry {rules : Entries RuleConfig} (h : ∀ e ∈ rules, e.2.Ranked)
    (entry : Value × Value) : ∀ e ∈ applyEntry rules entry, e.2.Ranked := by
  unfold applyEntry
  split
  · intro e he
    rcases Entries.mem_put he with rfl | he
    · refine RuleConfig.Ranked.merged ?_ (RuleConfig.ranked_given entry.2)
      cases hbase : rules.get? entry.1.words with
      | none =>
        intro s hs
        cases hs
      | some base => exact h _ (Entries.mem_of_get? hbase)
    · exact h e he
  · exact h

/-- Whatever the layers over a catalog say, all severities are names of severities. -/
theorem ranked_laid (c : Catalog) (layers : List Layer) : (laid c layers).Ranked :=
  List.foldlRecOn (motive := fun rules : Entries RuleConfig => ∀ e ∈ rules, e.2.Ranked) _ _
    (ranked_ofCatalog c) fun _ hrules entry _ => ranked_applyEntry hrules entry

theorem ranked_ofLayers {c : Catalog} {layers : List Layer} {config : Configuration}
    (h : ofLayers c layers = .ok config) : config.Ranked := by
  cases eq_laid h
  exact ranked_laid c layers

end Configuration

/-! ## Rules of a run -/

theorem Descriptor.of_activate {d : Descriptor} {config : RuleConfig} {r : ActiveRule}
    (h : d.activate config = .ok (some r)) :
    r.descriptor = d ∧ r.severity = config.severity.getD d.severity.name := by
  unfold activate at h
  obtain ⟨params, -, h⟩ := bind_eq_ok_iff.mp h
  split at h
  · cases h
    exact ⟨rfl, rfl⟩
  · cases h

namespace Catalog

theorem of_mem_activateAll {rules : Entries RuleConfig} {ds : List Descriptor}
    {active : List ActiveRule} (h : activateAll rules ds = .ok active) :
    ∀ r ∈ active, r.descriptor ∈ ds ∧
      r.descriptor.activate ((rules.get? r.id).getD {}) = .ok (some r) := by
  induction ds generalizing active with
  | nil =>
    cases h
    simp
  | cons d ds ih =>
    simp only [activateAll, bind_eq_ok_iff] at h
    obtain ⟨first, hfirst, rest, hrest, hactive⟩ := h
    cases hactive
    intro r hr
    rcases List.mem_append.mp hr with hr | hr
    · rw [Option.mem_toList] at hr
      subst hr
      rw [ActiveRule.id, (Descriptor.of_activate hfirst).1]
      exact ⟨List.mem_cons_self, hfirst⟩
    · obtain ⟨hd, hactivate⟩ := ih hrest r hr
      exact ⟨List.mem_cons_of_mem _ hd, hactivate⟩

/-- The rules of a run are rules of the catalog, as the configuration makes them. -/
theorem activated_of_resolve {c : Catalog} {config : Configuration} {rs : ActiveRules}
    (h : c.resolve config = .ok rs) :
    rs.Indexed ∧ ∀ r ∈ rs.rules, r.descriptor ∈ c.descriptors ∧
      r.descriptor.activate ((config.rules.get? r.id).getD {}) = .ok (some r) := by
  unfold resolve at h
  split at h
  · cases h
  · obtain ⟨active, hactive, hrs⟩ := bind_eq_ok_iff.mp h
    cases hrs
    refine ⟨ActiveRules.indexed_ofList _ _, fun r hr => ?_⟩
    have hmem := (ActiveRules.rules_ofList_perm _ _).mem_iff.mp hr
    obtain ⟨hd, hactivate⟩ := of_mem_activateAll hactive r hmem
    exact ⟨(List.mergeSort_perm _ _).mem_iff.mp hd, hactivate⟩

/-- A run that a catalog resolves to: its index is right, its rules are rules of the catalog, and
their severities are those of the configuration or else their own. -/
theorem of_resolve {c : Catalog} {config : Configuration} {rs : ActiveRules}
    (h : c.resolve config = .ok rs) :
    rs.Indexed ∧ ∀ r ∈ rs.rules, r.descriptor ∈ c.descriptors ∧
      r.severity = ((config.rules.get? r.id).getD {}).severity.getD r.descriptor.severity.name := by
  obtain ⟨hindexed, hrules⟩ := activated_of_resolve h
  refine ⟨hindexed, fun r hr => ?_⟩
  obtain ⟨hd, hactivate⟩ := hrules r hr
  exact ⟨hd, (Descriptor.of_activate hactivate).2⟩

/-- Every rule of a run has a rank, if its configuration names severities only. -/
theorem isSome_severity_of_ranked {c : Catalog} {config : Configuration} (hconfig : config.Ranked)
    {rs : ActiveRules} (h : c.resolve config = .ok rs) :
    ∀ r ∈ rs.rules, (Severity.ofName? r.severity).isSome := by
  intro r hr
  rw [((of_resolve h).2 r hr).2]
  cases hsettings : config.rules.get? r.id with
  | none => simp [Severity.ofName?_name]
  | some settings =>
    rw [Option.getD_some]
    cases hseverity : settings.severity with
    | none => simp [Severity.ofName?_name]
    | some s => exact hconfig _ (Entries.mem_of_get? hsettings) s hseverity

end Catalog

/-! ## What resolves -/

theorem Descriptor.exists_bind {d : Descriptor} {values : Entries Value}
    (h : ∀ e ∈ values, ∃ w, d.coerce e.1 e.2 = .ok w) (params : Entries Value) :
    ∃ bound, d.bind params values = .ok bound := by
  induction values generalizing params with
  | nil => exact ⟨params, rfl⟩
  | cons e rest ih =>
    obtain ⟨name, v⟩ := e
    obtain ⟨w, hw⟩ := h (name, v) List.mem_cons_self
    obtain ⟨bound, hbound⟩ := ih (fun e he => h e (List.mem_cons_of_mem _ he)) (params.put name w)
    exact ⟨bound, bind_eq_ok_iff.mpr ⟨w, hw, hbound⟩⟩

theorem Descriptor.exists_activate {d : Descriptor} {config : RuleConfig}
    (h : ∀ e ∈ config.params, ∃ w, d.coerce e.1 e.2 = .ok w) :
    ∃ active, d.activate config = .ok active := by
  have hsorted := fun e he => h e ((List.mergeSort_perm config.params
    fun a b => (compare a.1 b.1).isLE).mem_iff.mp he)
  obtain ⟨params, hparams⟩ := d.exists_bind hsorted d.defaults
  unfold activate
  by_cases henabled : config.enabled.getD d.enabled
  · exact ⟨_, bind_eq_ok_iff.mpr ⟨params, hparams, if_pos henabled⟩⟩
  · exact ⟨_, bind_eq_ok_iff.mpr ⟨params, hparams, if_neg henabled⟩⟩

namespace Catalog

theorem exists_activateAll {rules : Entries RuleConfig} {ds : List Descriptor}
    (h : ∀ d ∈ ds, ∃ active, d.activate ((rules.get? d.id).getD {}) = .ok active) :
    ∃ active, activateAll rules ds = .ok active := by
  induction ds with
  | nil => exact ⟨[], rfl⟩
  | cons d ds ih =>
    obtain ⟨first, hfirst⟩ := h d List.mem_cons_self
    obtain ⟨rest, hrest⟩ := ih fun d hd => h d (List.mem_cons_of_mem _ hd)
    exact ⟨first.toList ++ rest,
      bind_eq_ok_iff.mpr ⟨first, hfirst, bind_eq_ok_iff.mpr ⟨rest, hrest, rfl⟩⟩⟩

/-- A configuration resolves when it names rules of the catalog only, and gives each rule of the
catalog values that fit. -/
theorem exists_resolve {c : Catalog} {config : Configuration}
    (hnames : ∀ e ∈ config.rules, c.has e.1)
    (hfit : ∀ d ∈ c.descriptors, ∀ settings ∈ config.rules.get? d.id, ∀ e ∈ settings.params,
      ∃ w, d.coerce e.1 e.2 = .ok w) :
    ∃ rs, c.resolve config = .ok rs := by
  have hknown : c.firstUnknown? config.rules.names = none := by
    unfold firstUnknown?
    rw [List.find?_eq_none]
    intro id hid
    obtain ⟨e, he, rfl⟩ := List.mem_map.mp ((List.mergeSort_perm _ _).mem_iff.mp hid)
    simp [hnames e he]
  have hactive : ∀ d ∈ c.sorted, ∃ active,
      d.activate ((config.rules.get? d.id).getD {}) = .ok active := by
    intro d hd
    have hd := (List.mergeSort_perm _ _).mem_iff.mp hd
    apply Descriptor.exists_activate
    cases hsettings : config.rules.get? d.id with
    | none => simp
    | some settings => exact hfit d hd settings hsettings
  obtain ⟨active, hactive⟩ := exists_activateAll hactive
  simp only [resolve, hknown]
  exact ⟨_, bind_eq_ok_iff.mpr ⟨active, hactive, rfl⟩⟩

/-- The defaults of the standard catalog resolve. -/
theorem exists_resolve_standard :
    ∃ config rs, Configuration.ofLayers standard [] = .ok config ∧
      standard.resolve config = .ok rs := by
  have hhas : ∀ d ∈ standardRules, standard.has d.id := by decide
  have hfit : ∀ d ∈ standardRules, ∀ d' ∈ standardRules, d'.id = d.id →
      ∀ e ∈ d'.defaults, (d.coerce e.1 e.2).toBool := by decide +kernel
  have hmem : ∀ {d}, d ∈ standard.sorted → d ∈ standardRules :=
    fun hd => (List.mergeSort_perm _ _).mem_iff.mp hd
  suffices h : ∃ rs, standard.resolve (Configuration.ofCatalog standard) = .ok rs by
    obtain ⟨rs, hrs⟩ := h
    exact ⟨_, rs, rfl, hrs⟩
  apply exists_resolve
  · intro e he
    obtain ⟨d, hd, rfl⟩ := List.mem_map.mp he
    exact hhas d (hmem hd)
  · intro d hd settings hsettings e he
    obtain ⟨d', hd', heq⟩ := List.mem_map.mp (Entries.mem_of_get? hsettings)
    obtain ⟨hid, rfl⟩ := Prod.mk.inj heq
    have hok := hfit d hd d' (hmem hd') hid e he
    cases hw : d.coerce e.1 e.2 with
    | error fault => simp [hw, Except.toBool] at hok
    | ok w => exact ⟨w, rfl⟩

end Catalog

/-! ## Reports -/

namespace Report

theorem ofModel_eq_ok_iff {m : Model} {rs : ActiveRules} {r : Report} :
    ofModel m rs = .ok r ↔ ∃ a, Analysis.ofModel m rs = .ok a ∧
      aggregate a.findings m.suppressions a.errors (some rs) = .ok r := by
  unfold ofModel
  simp only [bind_eq_ok_iff, Stop.writing_eq_ok_iff, ofAnalysis]

/-- What there is to report on a unit can be written: each failure of a rule can be put on record,
and so can the notes on suppressions. -/
def Writable (m : Model) (rs : ActiveRules) : Prop :=
  (∀ f ∈ (Survey.ofModel m rs).failures, f.Recordable) ∧
    Noted (Survey.ofModel m rs).findings m.suppressions (some rs)

/-- A run of rules that all have a rank reports on every unit whose report can be written. -/
theorem exists_ofModel_iff {rs : ActiveRules} (hindexed : rs.Indexed)
    (hranked : ∀ r ∈ rs.rules, (Severity.ofName? r.severity).isSome) (m : Model) :
    (∃ r, ofModel m rs = .ok r) ↔ Writable m rs := by
  constructor
  · rintro ⟨r, hr⟩
    obtain ⟨a, ha, hr⟩ := ofModel_eq_ok_iff.mp hr
    have hnoted := noted_of_aggregate hr
    rw [(Analysis.ofModel_eq_ok_iff hindexed).mp ha |>.1] at hnoted
    exact ⟨(Analysis.exists_ofModel_iff hindexed).mp ⟨a, ha⟩, hnoted⟩
  · rintro ⟨hrecordable, hnoted⟩
    obtain ⟨a, ha⟩ := (Analysis.exists_ofModel_iff hindexed).mpr hrecordable
    have hfindings := ((Analysis.ofModel_eq_ok_iff hindexed).mp ha).1
    have hknown : ∀ f ∈ a.findings, f.severity?.isSome := by
      intro f hf
      rw [hfindings] at hf
      obtain ⟨r, hr, -, hseverity⟩ := Survey.rule_of_mem_findings hf
      rw [Finding.severity?, hseverity]
      exact hranked r hr
    have hrules : ∀ rs' ∈ some rs, ∀ u ∈ rs'.get? unusedSuppression,
        (Severity.ofName? u.severity).isSome := by
      intro rs' hrs' u hu
      cases hrs'
      exact hranked u (List.mem_reverse.mp (List.mem_of_find?_eq_some hu))
    rw [← hfindings] at hnoted
    obtain ⟨r, hr, -⟩ := exists_aggregate a.findings m.suppressions (some rs) a.errors hknown hrules
      hnoted
    exact ⟨r, ofModel_eq_ok_iff.mpr ⟨a, ha, hr⟩⟩

end Report

end ComponentLint

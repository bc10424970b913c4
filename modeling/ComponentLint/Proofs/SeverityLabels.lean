-- Severities are labels. They decide where a finding stands in a report and
-- nothing else: two runs whose rules differ in severities only find the same,
-- silence the same and tell of the same idle suppressions, each finding under
-- the label that its own configuration gives to the rule.
import ComponentLint.Proofs.EffectiveSettings
import ComponentLint.Proofs.Resolution
import ComponentLint.Proofs.RuleIsolation

namespace ComponentLint

/-! ## New labels -/

/-- A finding under the label of its rule. -/
def Finding.relabel (label : String → String) (f : Finding) : Finding :=
  { f with severity := label f.ruleId }

/-- A rule of a run under a label. -/
def ActiveRule.relabel (label : String → String) (r : ActiveRule) : ActiveRule :=
  { r with severity := label r.id }

/-- Two runs with the same rules under other labels. -/
structure Relabelled (label : String → String) (rs rs' : ActiveRules) : Prop where
  rules : rs'.rules = rs.rules.map (ActiveRule.relabel label)
  registered : rs'.registered = rs.registered
  indexed : rs.Indexed
  indexed' : rs'.Indexed

/-- New labels do not move the rules of a run. -/
theorem relabelled_ofList (label : String → String) (rules : List ActiveRule)
    (registered : List String) :
    Relabelled label (.ofList rules registered)
      (.ofList (rules.map (ActiveRule.relabel label)) registered) := by
  have hsorted := ActiveRules.rules_ofList_map (f := ActiveRule.relabel label) (fun _ => rfl) rules
    registered
  refine ⟨hsorted, ?_, ActiveRules.indexed_ofList _ _, ActiveRules.indexed_ofList _ _⟩
  have hids := congrArg (List.map ActiveRule.id) hsorted
  rw [List.map_map] at hids
  exact congrArg (registered ++ ·) hids

namespace Relabelled

variable {label : String → String} {rs rs' : ActiveRules} (h : Relabelled label rs rs')
include h

theorem get?_eq (id : String) : rs'.get? id = (rs.get? id).map (ActiveRule.relabel label) := by
  unfold ActiveRules.get?
  rw [h.rules, ← List.map_reverse, List.find?_map]
  rfl

theorem has_eq (id : String) : rs'.has id = rs.has id := by
  unfold ActiveRules.has
  rw [h.get?_eq, Option.isSome_map]

/-! ## The analysis under new labels -/

theorem atNode_eq (phase : Phase) (v : Tree.Visit (Entry Kind)) :
    Evaluation.atNode rs' phase v =
      (Evaluation.atNode rs phase v).map fun e => ⟨e.rule.relabel label, e.visit⟩ := by
  unfold Evaluation.atNode
  rw [h.rules, List.filter_map, List.map_map, List.map_map]
  rfl

theorem ofForest_eq (chain ts : List Node) :
    Evaluation.ofForest rs' chain ts =
      (Evaluation.ofForest rs chain ts).map fun e => ⟨e.rule.relabel label, e.visit⟩ := by
  induction ts using Tree.forest_induction generalizing chain with
  | nil => rfl
  | cons e ts us ihBelow ihBeside =>
    simp only [Evaluation.ofForest_cons, List.map_append, h.atNode_eq, ihBelow, ihBeside]

end Relabelled

/-- What a rule finds at a node, it finds there under any label. -/
theorem ActiveRule.survey_relabel (label : String → String) (r : ActiveRule) (m : Model)
    (v : Tree.Visit (Entry Kind)) :
    ((r.relabel label).survey m v).findings =
        (r.survey m v).findings.map (Finding.relabel label) ∧
      ((r.relabel label).survey m v).failures = (r.survey m v).failures := by
  have hcheck : (r.relabel label).descriptor = r.descriptor := rfl
  unfold survey
  rw [hcheck]
  cases r.descriptor.check with
  | none => exact ⟨rfl, rfl⟩
  | some check =>
    have hparams : (r.relabel label).params = r.params := rfl
    dsimp only
    rw [hparams]
    split
    · exact ⟨rfl, rfl⟩
    · rw [List.map_map]
      exact ⟨rfl, rfl⟩

theorem Relabelled.survey {label : String → String} {rs rs' : ActiveRules}
    (h : Relabelled label rs rs') (m : Model) :
    (Survey.ofModel m rs').findings = (Survey.ofModel m rs).findings.map (Finding.relabel label) ∧
      (Survey.ofModel m rs').failures = (Survey.ofModel m rs).failures := by
  unfold Survey.ofModel
  rw [h.ofForest_eq]
  unfold Survey.ofEvaluations
  constructor
  · dsimp only
    rw [List.flatMap_map, List.map_flatMap]
    exact List.flatMap_congr fun e _ => (e.rule.survey_relabel label m e.visit).1
  · dsimp only
    rw [List.flatMap_map]
    exact List.flatMap_congr fun e _ => (e.rule.survey_relabel label m e.visit).2

/-! ## The report under new labels -/

namespace Report

theorem firstOccurrences_relabel (label : String → String) (seen : List (String × Span))
    (fs : List Finding) :
    firstOccurrences seen (fs.map (Finding.relabel label)) =
      (firstOccurrences seen fs).map (Finding.relabel label) := by
  induction fs generalizing seen with
  | nil => rfl
  | cons f fs ih =>
    have hkey : (f.relabel label).key = f.key := rfl
    rw [List.map_cons, firstOccurrences_cons, firstOccurrences_cons, hkey]
    by_cases hseen : f.key ∈ seen
    · rw [if_pos hseen, if_pos hseen, ih]
    · rw [if_neg hseen, if_neg hseen, ih, List.map_cons]

theorem kept_relabel (label : String → String) (findings : List Finding)
    (suppressions : List Suppression) :
    kept (findings.map (Finding.relabel label)) suppressions =
      (kept findings suppressions).map (Finding.relabel label) := by
  unfold kept
  rw [firstOccurrences_relabel, List.filter_map]
  rfl

theorem unmatched_relabel (label : String → String) (findings : List Finding)
    (suppressions : List Suppression) :
    unmatched (findings.map (Finding.relabel label)) suppressions =
      unmatched findings suppressions := by
  have hmatches : ∀ (s : Suppression) (f : Finding), s.Matches (f.relabel label) ↔ s.Matches f :=
    fun _ _ => Iff.rfl
  unfold unmatched
  simp only [List.forall_mem_map, hmatches]

theorem reported_relabel {label : String → String} {rs rs' : ActiveRules}
    (h : Relabelled label rs rs') (idle : List Suppression) :
    reported (some rs') idle = reported (some rs) idle := by
  have hidle : idle? (some rs') = idle? (some rs) := by
    funext s
    unfold idle? ActiveRules.isRegistered
    dsimp only
    rw [h.has_eq, h.registered]
  unfold reported
  rw [hidle]

theorem idleSeverity?_relabel {label : String → String} {rs rs' : ActiveRules}
    (h : Relabelled label rs rs') :
    idleSeverity? (some rs') = (idleSeverity? (some rs)).map fun _ => label unusedSuppression := by
  unfold idleSeverity?
  dsimp only
  rw [h.get?_eq]
  cases hunused : rs.get? unusedSuppression with
  | none => rfl
  | some r =>
    -- the notes bear the label of the rule about idle suppressions
    have hid : r.id = unusedSuppression := by simpa using List.find?_some hunused
    simp [ActiveRule.relabel, hid]

theorem idleNotes_relabel {label : String → String} {rs rs' : ActiveRules}
    (h : Relabelled label rs rs') (idle : List Suppression) :
    idleNotes (some rs') idle = (idleNotes (some rs) idle).map (Finding.relabel label) := by
  unfold idleNotes
  rw [reported_relabel h, idleSeverity?_relabel h]
  cases idleSeverity? (some rs) with
  | none => rfl
  | some severity =>
    simp only [Option.map_some, List.map_map]
    rfl

theorem noted_relabel {label : String → String} {rs rs' : ActiveRules}
    (h : Relabelled label rs rs') (findings : List Finding) (suppressions : List Suppression) :
    Noted (findings.map (Finding.relabel label)) suppressions (some rs') ↔
      Noted findings suppressions (some rs) := by
  rw [noted_iff, noted_iff, idleAmong_eq, idleAmong_eq, unmatched_relabel, allTellable,
    allTellable, reported_relabel h, idleSeverity?_relabel h, Option.isNone_map]

theorem writable_relabel {label : String → String} {rs rs' : ActiveRules}
    (h : Relabelled label rs rs') (m : Model) : Writable m rs' ↔ Writable m rs := by
  obtain ⟨hfindings, hfailures⟩ := h.survey m
  rw [Writable, Writable, hfindings, hfailures, noted_relabel h]

/-- What a report puts in order is the same under other labels. -/
theorem listing_relabel {label : String → String} {rs rs' : ActiveRules}
    (h : Relabelled label rs rs') (findings : List Finding) (suppressions : List Suppression) :
    listing (findings.map (Finding.relabel label)) suppressions (some rs') =
      (listing findings suppressions (some rs)).map (Finding.relabel label) := by
  rw [listing_eq, listing_eq, kept_relabel, unmatched_relabel, idleNotes_relabel h,
    List.map_append]

/-- A report under other labels has the same failures, and the same findings under their labels. -/
theorem perm_of_relabelled {label : String → String} {rs rs' : ActiveRules}
    (h : Relabelled label rs rs') {m : Model} {r r' : Report} (hr : ofModel m rs = .ok r)
    (hr' : ofModel m rs' = .ok r') :
    r'.errors = r.errors ∧ r'.findings.Perm (r.findings.map (Finding.relabel label)) := by
  obtain ⟨a, ha, hr⟩ := ofModel_eq_ok_iff.mp hr
  obtain ⟨a', ha', hr'⟩ := ofModel_eq_ok_iff.mp hr'
  obtain ⟨-, hsort, herrors⟩ := aggregate_eq_ok_iff.mp hr
  obtain ⟨-, hsort', herrors'⟩ := aggregate_eq_ok_iff.mp hr'
  obtain ⟨hfound, hfailed, -⟩ := (Analysis.ofModel_eq_ok_iff h.indexed).mp ha
  obtain ⟨hfound', hfailed', -⟩ := (Analysis.ofModel_eq_ok_iff h.indexed').mp ha'
  obtain ⟨hfindings, hfailures⟩ := h.survey m
  constructor
  · rw [herrors, herrors']
    refine List.map_injective_iff.mpr RuleError.toRuleFailure_injective ?_
    rw [hfailed, hfailed', hfailures]
  rw [(Finding.sort_eq_ok_iff.mp hsort).2, (Finding.sort_eq_ok_iff.mp hsort').2, hfound', hfindings,
    ← hfound, listing_relabel h]
  exact (List.mergeSort_perm _ _).trans ((List.mergeSort_perm _ _).map _).symm

end Report

/-! ## Configurations that differ in severities -/

/-- Settings of a rule that say the same of everything but the severity; the parameters, each given
once, may stand in any order. -/
structure RuleConfig.SameButSeverity (a b : RuleConfig) : Prop where
  enabled : a.enabled = b.enabled
  params : a.params.Perm b.params
  distinct : a.params.names.Nodup

/-- Configurations that say the same of all rules but for the severities. A rule without an entry is
one of which nothing is said. -/
def Configuration.SameButSeverities (config config' : Configuration) : Prop :=
  ∀ id, ((config.rules.get? id).getD {}).SameButSeverity ((config'.rules.get? id).getD {})

/-- The severity that a configuration gives to a rule of a catalog, else the one it comes with. -/
def Catalog.severityUnder? (c : Catalog) (config : Configuration) (id : String) : Option String :=
  (c.find? id).map fun d => ((config.rules.get? id).getD {}).severity.getD d.severity.name

theorem RuleConfig.SameButSeverity.sorted_params {a b : RuleConfig} (h : a.SameButSeverity b) :
    a.params.mergeSort (fun a b => (compare a.1 b.1).isLE) =
      b.params.mergeSort fun a b => (compare a.1 b.1).isLE := by
  have hsorted := List.mergeSort_perm a.params fun a b => (compare a.1 b.1).isLE
  have hsorted' := List.mergeSort_perm b.params fun a b => (compare a.1 b.1).isLE
  refine List.Perm.eq_of_pairwise ?_ (pairwise_mergeSort_cmp (compareOn Prod.fst) a.params)
    (pairwise_mergeSort_cmp (compareOn Prod.fst) b.params)
    ((hsorted.trans h.params).trans hsorted'.symm)
  -- parameters with one name are one parameter
  intro e e' he he' hle hge
  have hname : e.1 = e'.1 :=
    Std.LawfulEqCmp.eq_of_compare (Std.OrientedCmp.isLE_antisymm hle hge)
  exact List.inj_on_of_nodup_map h.distinct (hsorted.mem_iff.mp he)
    (h.params.mem_iff.mpr (hsorted'.mem_iff.mp he')) hname

theorem Descriptor.activate_relabel {d : Descriptor} {a b : RuleConfig} (h : a.SameButSeverity b)
    {label : String → String} (hlabel : label d.id = b.severity.getD d.severity.name)
    {active active' : Option ActiveRule} (ha : d.activate a = .ok active)
    (hb : d.activate b = .ok active') : active' = active.map (ActiveRule.relabel label) := by
  unfold activate at ha hb
  rw [← h.sorted_params, ← h.enabled, ← hlabel] at hb
  obtain ⟨params, hparams, ha⟩ := bind_eq_ok_iff.mp ha
  obtain ⟨params', hparams', hb⟩ := bind_eq_ok_iff.mp hb
  cases hparams.symm.trans hparams'
  by_cases henabled : a.enabled.getD d.enabled
  · rw [if_pos henabled] at ha hb
    cases ha
    cases hb
    rfl
  · rw [if_neg henabled] at ha hb
    cases ha
    cases hb
    rfl

namespace Catalog

theorem activateAll_relabel {rules rules' : Entries RuleConfig}
    (h : ∀ id, ((rules.get? id).getD {}).SameButSeverity ((rules'.get? id).getD {}))
    {label : String → String} {ds : List Descriptor}
    (hlabel : ∀ d ∈ ds,
      label d.id = ((rules'.get? d.id).getD {}).severity.getD d.severity.name)
    {active active' : List ActiveRule} (ha : activateAll rules ds = .ok active)
    (ha' : activateAll rules' ds = .ok active') :
    active' = active.map (ActiveRule.relabel label) := by
  induction ds generalizing active active' with
  | nil =>
    cases ha
    cases ha'
    rfl
  | cons d ds ih =>
    simp only [activateAll, bind_eq_ok_iff] at ha ha'
    obtain ⟨first, hfirst, rest, hrest, hactive⟩ := ha
    obtain ⟨first', hfirst', rest', hrest', hactive'⟩ := ha'
    cases hactive
    cases hactive'
    obtain ⟨hd, hds⟩ := List.forall_mem_cons.mp hlabel
    rw [ih hds hrest hrest', Descriptor.activate_relabel (h d.id) hd hfirst hfirst',
      List.map_append]
    cases first with
    | none => rfl
    | some r => rfl

section

variable {c : Catalog} (hids : (c.descriptors.map Descriptor.id).Nodup)
include hids

/-- The rules of a run bear the severities that the configuration gives them. -/
theorem severityUnder?_of_resolve {config : Configuration} {rs : ActiveRules}
    (h : c.resolve config = .ok rs) :
    ∀ r ∈ rs.rules, c.severityUnder? config r.id = some r.severity := by
  intro r hr
  obtain ⟨hd, hseverity⟩ := (of_resolve h).2 r hr
  have hfind : c.find? r.id = some r.descriptor := find?_id hids hd
  rw [severityUnder?, hfind, hseverity, Option.map_some]

/-- Configurations that differ in severities resolve to runs that differ in labels. -/
theorem relabelled_of_resolve {config config' : Configuration}
    (hsame : config.SameButSeverities config') {rs rs' : ActiveRules}
    (hrs : c.resolve config = .ok rs) (hrs' : c.resolve config' = .ok rs') :
    Relabelled (fun id => (c.severityUnder? config' id).getD "") rs rs' := by
  unfold resolve at hrs hrs'
  split at hrs
  · cases hrs
  split at hrs'
  · cases hrs'
  obtain ⟨active, hactive, hrs⟩ := bind_eq_ok_iff.mp hrs
  obtain ⟨active', hactive', hrs'⟩ := bind_eq_ok_iff.mp hrs'
  cases hrs
  cases hrs'
  rw [activateAll_relabel hsame ?_ hactive hactive']
  · exact relabelled_ofList _ _ _
  · intro d hd
    have hfind := find?_id hids ((List.mergeSort_perm _ _).mem_iff.mp hd)
    rw [severityUnder?, hfind]
    rfl

/-- Every finding of a report bears the severity that the configuration gives its rule. -/
theorem severityUnder?_of_ofModel {config : Configuration} {rs : ActiveRules}
    (h : c.resolve config = .ok rs) {m : Model} {r : Report} (hr : Report.ofModel m rs = .ok r) :
    ∀ f ∈ r.findings, c.severityUnder? config f.ruleId = some f.severity := by
  have hrules := severityUnder?_of_resolve hids h
  intro f hf
  obtain ⟨a, ha, hr⟩ := Report.ofModel_eq_ok_iff.mp hr
  obtain ⟨-, hsort, -⟩ := Report.aggregate_eq_ok_iff.mp hr
  rw [(Finding.sort_eq_ok_iff.mp hsort).2, (List.mergeSort_perm _ _).mem_iff,
    Report.listing_eq] at hf
  rcases List.mem_append.mp hf with hf | hf
  · have hfound := Report.firstOccurrences_subset (List.mem_filter.mp hf).1
    rw [((Analysis.ofModel_eq_ok_iff (of_resolve h).1).mp ha).1] at hfound
    obtain ⟨rule, hrule, hid, hseverity⟩ := Survey.rule_of_mem_findings hfound
    rw [hid, hseverity]
    exact hrules rule hrule
  · obtain ⟨severity, s, why, hseverity, -, rfl⟩ := Report.of_mem_idleNotes hf
    obtain ⟨rule, hrule, rfl⟩ := Option.map_eq_some_iff.mp hseverity
    have hid : rule.id = unusedSuppression := by simpa using List.find?_some hrule
    have hmem := List.mem_reverse.mp (List.mem_of_find?_eq_some hrule)
    have hconfigured := hrules rule hmem
    rwa [hid] at hconfigured

end

end Catalog

/-! ## Reports under both configurations -/

/-- What a finding says beside its severity: the rule, the place and with it the span, the message
and the suggestion. -/
def Finding.unlabelled (f : Finding) : String × Place × String × Option String :=
  (f.ruleId, f.place, f.message, f.suggestion)

/-- Under two configurations of the standard catalog that differ in severities only, the reports on
a unit have the same failures and say the same beside the severities, and each finding, a note on an
idle suppression included, has the severity that its configuration gives to its rule. Wherever the
severities of a configuration are known ones there is a report as long as it can be written, which
does not depend on the severities. -/
theorem severities_are_only_labels (m : Model) (config config' : Configuration)
    (hsame : config.SameButSeverities config') (rs rs' : ActiveRules)
    (hrs : Catalog.standard.resolve config = .ok rs)
    (hrs' : Catalog.standard.resolve config' = .ok rs') :
    (config.Ranked → ((∃ r, Report.ofModel m rs = .ok r) ↔ Report.Writable m rs)) ∧
    (config'.Ranked → ((∃ r', Report.ofModel m rs' = .ok r') ↔ Report.Writable m rs)) ∧
    ∀ r r', Report.ofModel m rs = .ok r → Report.ofModel m rs' = .ok r' →
      r.errors = r'.errors ∧
      (r.findings.map Finding.unlabelled).Perm (r'.findings.map Finding.unlabelled) ∧
      (∀ f ∈ r.findings, Catalog.standard.severityUnder? config f.ruleId = some f.severity) ∧
      ∀ f ∈ r'.findings, Catalog.standard.severityUnder? config' f.ruleId = some f.severity := by
  have hrelabelled := Catalog.relabelled_of_resolve Catalog.nodup_standard_ids hsame hrs hrs'
  have hexists : ∀ (config : Configuration) (rs : ActiveRules),
      Catalog.standard.resolve config = .ok rs → config.Ranked →
      ((∃ r, Report.ofModel m rs = .ok r) ↔ Report.Writable m rs) := by
    intro config rs hrs hranked
    exact Report.exists_ofModel_iff (Catalog.of_resolve hrs).1
      (Catalog.isSome_severity_of_ranked hranked hrs) m
  refine ⟨hexists config rs hrs, fun hranked => ?_, fun r r' hr hr' => ?_⟩
  · rw [hexists config' rs' hrs' hranked, Report.writable_relabel hrelabelled]
  obtain ⟨herrors, hperm⟩ := Report.perm_of_relabelled hrelabelled hr hr'
  refine ⟨herrors.symm, ?_, Catalog.severityUnder?_of_ofModel Catalog.nodup_standard_ids hrs hr,
    Catalog.severityUnder?_of_ofModel Catalog.nodup_standard_ids hrs' hr'⟩
  have hbodies := hperm.map Finding.unlabelled
  rw [List.map_map] at hbodies
  exact hbodies.symm

/-- The defaults, with notes on idle suppressions raised to errors. -/
def raisedNotes : Configuration := { rules := [(unusedSuppression, { severity := some "error" })] }

/-- A unit without nodes, with a suppression that is idle. -/
def idleUnit : Model :=
  Model.ofForest "A" [] [] [⟨"A", "stable-identity", .int 1, .int 1, .int 1⟩]

theorem writable_idleUnit (rs : ActiveRules) : Report.Writable idleUnit rs := by
  refine ⟨List.forall_mem_nil _, fun s hs _ _ => ?_⟩
  cases List.mem_singleton.mp hs
  exact Or.inl (Number.isShort_of_natAbs_lt (by decide))

theorem raisedNotes_are_only_labels :
    Catalog.standard.severityUnder? {} unusedSuppression ≠
        Catalog.standard.severityUnder? raisedNotes unusedSuppression ∧
      Configuration.SameButSeverities {} raisedNotes ∧
      ∃ rs rs' r r', Catalog.standard.resolve {} = .ok rs ∧
        Catalog.standard.resolve raisedNotes = .ok rs' ∧
        Report.ofModel idleUnit rs = .ok r ∧ Report.ofModel idleUnit rs' = .ok r' ∧
        (r.findings.map Finding.unlabelled).Perm (r'.findings.map Finding.unlabelled) := by
  have hsame : Configuration.SameButSeverities {} raisedNotes := by
    intro id
    by_cases hid : id = unusedSuppression
    · subst hid
      exact ⟨rfl, .nil, List.nodup_nil⟩
    · have hnone : raisedNotes.rules.get? id = none := by
        simp [raisedNotes, Entries.get?, Ne.symm hid]
      rw [hnone]
      exact ⟨rfl, .nil, List.nodup_nil⟩
  obtain ⟨rs, hrs⟩ : ∃ rs, Catalog.standard.resolve {} = .ok rs :=
    Catalog.exists_resolve (by simp) (by simp [Entries.get?])
  obtain ⟨rs', hrs'⟩ : ∃ rs, Catalog.standard.resolve raisedNotes = .ok rs := by
    refine Catalog.exists_resolve (by decide) fun d _ settings hsettings e he => ?_
    obtain ⟨-, rfl⟩ := Prod.mk.inj (List.mem_singleton.mp (Entries.mem_of_get? hsettings))
    cases he
  have hranked : raisedNotes.Ranked := by
    intro e he s hs
    cases List.mem_singleton.mp he
    cases hs
    decide
  obtain ⟨hreport, hreport', hlabels⟩ := severities_are_only_labels idleUnit {} raisedNotes hsame
    rs rs' hrs hrs'
  obtain ⟨r, hr⟩ := (hreport (by simp [Configuration.Ranked])).mpr (writable_idleUnit rs)
  obtain ⟨r', hr'⟩ := (hreport' hranked).mpr (writable_idleUnit rs)
  exact ⟨by decide, hsame, rs, rs', r, r', hrs, hrs', hr, hr', (hlabels r r' hr hr').2.1⟩

end ComponentLint

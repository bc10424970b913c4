-- Rules do not interfere. What an analysis holds of some rules is decided by
-- these rules alone, whatever the others do, and a check that fails at a node
-- leaves one failure there and nothing else. Only a failure that cannot be put
-- on record ends the analysis for all rules.
import ComponentLint.Proofs.Analysis

namespace ComponentLint

/-! ## What is attributed to rules -/

/-- The findings and the failures of the rules whose ids have a property. -/
def Analysis.attributed (a : Analysis) (p : String → Bool) : List Finding × List RuleError :=
  (a.findings.filter fun f => p f.ruleId, a.errors.filter fun e => p e.ruleId)

/-- What a survey holds of the rules whose ids have a property. -/
def Survey.attributed (s : Survey) (p : String → Bool) : List Finding × List RuleFailure :=
  (s.findings.filter fun f => p f.ruleId, s.failures.filter fun f => p f.ruleId)

/-- The words for a failure are settled by the failure. -/
theorem RuleError.toRuleFailure_injective : Function.Injective RuleError.toRuleFailure := by
  rintro ⟨f, message, worded⟩ ⟨f', message', worded'⟩ rfl
  have hmessage : message = message' := Except.ok.inj (worded.symm.trans worded')
  subst hmessage
  rfl

theorem Analysis.attributed_eq_of_surveys {s s' : Survey} {a a' : Analysis} {p : String → Bool}
    (ha : s.recorded = .ok a) (ha' : s'.recorded = .ok a')
    (h : s.attributed p = s'.attributed p) : a.attributed p = a'.attributed p := by
  obtain ⟨hfindings, herrors, -⟩ := Survey.recorded_eq_ok_iff.mp ha
  obtain ⟨hfindings', herrors', -⟩ := Survey.recorded_eq_ok_iff.mp ha'
  have hpicked : ∀ es : List RuleError,
      (es.filter fun e => p e.ruleId).map RuleError.toRuleFailure =
        (es.map RuleError.toRuleFailure).filter fun f => p f.ruleId := fun es => by
    rw [List.filter_map]
    rfl
  obtain ⟨hsame, hsame'⟩ := Prod.mk.inj h
  refine Prod.ext ?_ (List.map_injective_iff.mpr RuleError.toRuleFailure_injective ?_)
  · simp only [attributed, hfindings, hfindings', hsame]
  · simp only [attributed, hpicked, herrors, herrors', hsame']

theorem ActiveRule.ruleId_of_mem_findings {r : ActiveRule} {m : Model}
    {v : Tree.Visit (Entry Kind)} {f : Finding} (h : f ∈ (r.survey m v).findings) :
    f.ruleId = r.id := by
  obtain ⟨check, -, remark, -, rfl⟩ := of_mem_survey h
  rfl

theorem ActiveRule.ruleId_of_mem_failures {r : ActiveRule} {m : Model}
    {v : Tree.Visit (Entry Kind)} {f : RuleFailure} (h : f ∈ (r.survey m v).failures) :
    f.ruleId = r.id := by
  unfold survey at h
  cases hcheck : r.descriptor.check with
  | none => simp [hcheck] at h
  | some check =>
    simp only [hcheck] at h
    split at h
    · rw [List.mem_singleton] at h
      rw [h]
    · cases h

/-- Picking among the results of some steps, where all results of a step fare alike. -/
theorem filter_flatMap_eq {α β : Type} {f : α → List β} {p : α → Bool} {q : β → Bool}
    (h : ∀ a, ∀ b ∈ f a, q b = p a) (l : List α) :
    (l.flatMap f).filter q = (l.filter p).flatMap f := by
  induction l with
  | nil => rfl
  | cons a l ih =>
    rw [List.flatMap_cons, List.filter_append, ih, List.filter_cons]
    by_cases hp : p a
    · have hall : (f a).filter q = f a :=
        List.filter_eq_self.mpr fun b hb => by rw [h a b hb, hp]
      rw [hall, if_pos hp, List.flatMap_cons]
    · have hnone : (f a).filter q = [] :=
        List.filter_eq_nil_iff.mpr fun b hb => by rw [h a b hb]; exact hp
      rw [hnone, if_neg hp, List.nil_append]

/-! ## A pass of some of the rules -/

namespace Evaluation

theorem filter_atNode {rs rs' : ActiveRules} {p : ActiveRule → Bool}
    (h : rs'.rules = rs.rules.filter p) (phase : Phase) (v : Tree.Visit (Entry Kind)) :
    (atNode rs phase v).filter (fun e => p e.rule) = atNode rs' phase v := by
  unfold atNode
  rw [List.filter_map, List.filter_filter, h, List.filter_filter]
  simp only [Function.comp_def, Bool.and_comm]

/-- The evaluations of some of the rules are those of a run of these rules alone. -/
theorem filter_ofForest {rs rs' : ActiveRules} {p : ActiveRule → Bool}
    (h : rs'.rules = rs.rules.filter p) (chain ts : List Node) :
    (ofForest rs chain ts).filter (fun e => p e.rule) = ofForest rs' chain ts := by
  induction ts using Tree.forest_induction generalizing chain with
  | nil => simp [ofForest]
  | cons e ts us ihBelow ihBeside =>
    rw [ofForest_cons, ofForest_cons]
    simp only [List.filter_append, filter_atNode h, ihBelow, ihBeside]

end Evaluation

namespace Survey

variable {m : Model} {rs rs' : ActiveRules}

/-- What is attributed to rules is what their evaluations bring to light. -/
theorem attributed_ofModel (m : Model) (rs : ActiveRules) (p : String → Bool) :
    (ofModel m rs).attributed p =
      let pass := (Evaluation.ofForest rs [] m.roots).filter fun e => p e.rule.id
      (pass.flatMap fun e => (e.result m).findings,
        pass.flatMap fun e => (e.result m).failures) := by
  have hfindings : ∀ (e : Evaluation), ∀ f ∈ (e.result m).findings, p f.ruleId = p e.rule.id :=
    fun e f hf => by rw [ActiveRule.ruleId_of_mem_findings hf]
  have hfailures : ∀ (e : Evaluation), ∀ f ∈ (e.result m).failures, p f.ruleId = p e.rule.id :=
    fun e f hf => by rw [ActiveRule.ruleId_of_mem_failures hf]
  unfold attributed ofModel ofEvaluations
  dsimp only
  rw [filter_flatMap_eq hfindings, filter_flatMap_eq hfailures]

/-- Runs that have the same rules with some ids attribute the same to them. -/
theorem attributed_eq_of_filter_eq (m : Model) (p : String → Bool)
    (h : rs.rules.filter (fun r => p r.id) = rs'.rules.filter fun r => p r.id) :
    (ofModel m rs).attributed p = (ofModel m rs').attributed p := by
  let alone : ActiveRules := ⟨rs.rules.filter fun r => p r.id, [], []⟩
  have hpass : alone.rules = rs.rules.filter fun r => p r.id := rfl
  have hpass' : alone.rules = rs'.rules.filter fun r => p r.id := h
  rw [attributed_ofModel, attributed_ofModel, Evaluation.filter_ofForest hpass,
    Evaluation.filter_ofForest hpass']

/-- A run whose rules all have one of some ids attributes everything to them. -/
theorem attributed_eq_all {p : String → Bool} (h : ∀ r ∈ rs.rules, p r.id) :
    (ofModel m rs).attributed p = ((ofModel m rs).findings, (ofModel m rs).failures) := by
  have hpass : (Evaluation.ofForest rs [] m.roots).filter (fun e => p e.rule.id) =
      Evaluation.ofForest rs [] m.roots :=
    List.filter_eq_self.mpr fun e he => h e.rule (Evaluation.of_mem_ofForest he).1
  rw [attributed_ofModel, hpass]
  rfl

end Survey

/-! ## One rule among others -/

/-- The rule with another check. -/
def ActiveRule.withCheck (check : Option Check) (r : ActiveRule) : ActiveRule :=
  { r with descriptor := { r.descriptor with check := check } }

/-- A rule of a run in which the one with a given id has another check. -/
def ActiveRule.swapCheck (id : String) (check : Option Check) (r : ActiveRule) : ActiveRule :=
  if r.id = id then r.withCheck check else r

theorem ActiveRule.id_swapCheck (id : String) (check : Option Check) (r : ActiveRule) :
    (r.swapCheck id check).id = r.id := by
  unfold swapCheck
  split
  · rfl
  · rfl

/-- Where no two items have one key, an item is the only one with its key. -/
theorem filter_eq_singleton {α β : Type} [DecidableEq β] {key : α → β} {items : List α}
    (hkeys : (items.map key).Nodup) {a : α} (ha : a ∈ items) :
    items.filter (fun b => key b = key a) = [a] := by
  obtain ⟨before, after, rfl⟩ := List.append_of_mem ha
  rw [List.map_append, List.map_cons, List.nodup_append] at hkeys
  obtain ⟨-, hafter, hbefore⟩ := hkeys
  have hnone : before.filter (fun b => key b = key a) = [] := by
    refine List.filter_eq_nil_iff.mpr fun b hb => ?_
    simpa using hbefore (key b) (List.mem_map_of_mem hb) (key a) List.mem_cons_self
  have hnone' : after.filter (fun b => key b = key a) = [] := by
    refine List.filter_eq_nil_iff.mpr fun b hb => ?_
    have hne : key b ≠ key a := fun h =>
      (List.nodup_cons.mp hafter).1 (h ▸ List.mem_map_of_mem hb)
    simpa using hne
  simp [List.filter_append, hnone, hnone']

namespace ActiveRules

theorem filter_rules_ofList {rules : List ActiveRule} (hids : (rules.map ActiveRule.id).Nodup)
    {r : ActiveRule} (hr : r ∈ rules) (registered : List String) :
    (ofList rules registered).rules.filter (fun q => q.id = r.id) = [r] := by
  have hperm := (rules_ofList_perm rules registered).filter fun q => q.id = r.id
  rw [filter_eq_singleton hids hr] at hperm
  exact List.perm_singleton.mp hperm

/-- A run with another check for one rule has the same other rules, in the same order. -/
theorem filter_rules_swapCheck (rules : List ActiveRule) (registered : List String)
    (id : String) (check : Option Check) :
    (ofList (rules.map (ActiveRule.swapCheck id check)) registered).rules.filter
        (fun q => q.id ≠ id) =
      (ofList rules registered).rules.filter fun q => q.id ≠ id := by
  rw [rules_ofList_map (ActiveRule.id_swapCheck id check), List.filter_map]
  simp only [Function.comp_def, ActiveRule.id_swapCheck]
  refine (List.map_congr_left fun q hq => ?_).trans (List.map_id _)
  have hne : q.id ≠ id := of_decide_eq_true (List.mem_filter.mp hq).2
  simp [ActiveRule.swapCheck, hne]

end ActiveRules

/-! ## Checks that fail -/

namespace Evaluation

/-- What the check of an evaluation produces; a rule without a check produces nothing. -/
def production (m : Model) (e : Evaluation) : Production :=
  match e.rule.descriptor.check with
  | none => ⟨[], none⟩
  | some check => check ⟨e.visit.tree, e.visit.ancestors, m, e.rule.params⟩

/-- An evaluation that fails leaves its failure, any other one the findings it produces. -/
theorem result_eq (m : Model) (e : Evaluation) :
    e.result m =
      match (e.production m).failure with
      | some why => { failures := [⟨e.rule.id, Place.ofSpan e.visit.tree.span, why⟩] }
      | none => { findings := (e.production m).remarks.map e.rule.finding } := by
  unfold result ActiveRule.survey production
  cases e.rule.descriptor.check with
  | none => rfl
  | some check => rfl

/-- The failures of some evaluations: one for each that fails, with its rule and its node. -/
def failures (m : Model) (es : List Evaluation) : List RuleFailure :=
  es.filterMap fun e => (e.production m).failure.map fun why =>
    ⟨e.rule.id, Place.ofSpan e.visit.tree.span, why⟩

/-- The findings of some evaluations: those of each that does not fail. -/
def findings (m : Model) (es : List Evaluation) : List Finding :=
  (es.filter fun e => (e.production m).failure.isNone).flatMap fun e =>
    (e.production m).remarks.map e.rule.finding

theorem flatMap_failures (m : Model) (es : List Evaluation) :
    es.flatMap (fun e => (e.result m).failures) = failures m es := by
  unfold failures
  induction es with
  | nil => rfl
  | cons e es ih =>
    rw [List.flatMap_cons, ih, List.filterMap_cons, result_eq]
    cases (e.production m).failure with
    | none => rfl
    | some why => rfl

theorem flatMap_findings (m : Model) (es : List Evaluation) :
    es.flatMap (fun e => (e.result m).findings) = findings m es := by
  unfold findings
  induction es with
  | nil => rfl
  | cons e es ih =>
    rw [List.flatMap_cons, ih, List.filter_cons, result_eq]
    cases (e.production m).failure with
    | none => rfl
    | some why => rfl

end Evaluation

/-! ## A rule alone and in company -/

namespace Analysis

variable {m : Model} {rules : List ActiveRule} {registered : List String} {a : Analysis}

/-- The failures of some rules of a run can be put on record if all of the run can. -/
theorem recordable_of_mem_attributed {rs : ActiveRules} (hindexed : rs.Indexed)
    (ha : ofModel m rs = .ok a) {p : String → Bool} {f : RuleFailure}
    (hf : f ∈ ((Survey.ofModel m rs).attributed p).2) : f.Recordable :=
  (exists_ofModel_iff hindexed).mp ⟨a, ha⟩ f (List.mem_of_mem_filter hf)

/-- A rule of a run that comes to an end comes to an end alone, with what it has in the run. -/
theorem exists_alone (hids : (rules.map ActiveRule.id).Nodup) {r : ActiveRule} (hr : r ∈ rules)
    (ha : ofModel m (.ofList rules registered) = .ok a) (registered' : List String) :
    ∃ alone, ofModel m (.ofList [r] registered') = .ok alone ∧
      a.attributed (· = r.id) = (alone.findings, alone.errors) := by
  have hindexed := ActiveRules.indexed_ofList rules registered
  have hindexed' := ActiveRules.indexed_ofList [r] registered'
  have hown : ∀ q ∈ (ActiveRules.ofList [r] registered').rules, decide (q.id = r.id) = true := by
    intro q hq
    rw [List.mem_singleton.mp ((ActiveRules.rules_ofList_perm [r] registered').mem_iff.mp hq)]
    exact decide_eq_true rfl
  have hone : (ActiveRules.ofList [r] registered').rules.filter (fun q => q.id = r.id) = [r] :=
    ActiveRules.filter_rules_ofList (by simp) List.mem_cons_self registered'
  have hsame := Survey.attributed_eq_of_filter_eq m (fun id => id = r.id)
    ((ActiveRules.filter_rules_ofList hids hr registered).trans hone.symm)
  have hall : (Survey.ofModel m (.ofList [r] registered')).attributed (· = r.id) = _ :=
    Survey.attributed_eq_all hown
  obtain ⟨alone, halone⟩ : ∃ alone, ofModel m (.ofList [r] registered') = .ok alone := by
    refine (exists_ofModel_iff hindexed').mpr fun f hf => ?_
    have hf : f ∈ ((Survey.ofModel m (.ofList [r] registered')).attributed (· = r.id)).2 := by
      rw [hall]
      exact hf
    rw [← hsame] at hf
    exact recordable_of_mem_attributed hindexed ha hf
  refine ⟨alone, halone, ?_⟩
  rw [ofModel_eq m hindexed] at ha
  rw [ofModel_eq m hindexed'] at halone
  rw [attributed_eq_of_surveys ha halone hsame]
  obtain ⟨hfindings, herrors, -⟩ := Survey.recorded_eq_ok_iff.mp halone
  obtain ⟨hfindingsAll, hfailuresAll⟩ := Prod.mk.inj hall
  refine Prod.ext ?_ ?_
  · rw [attributed, hfindings]
    exact hfindingsAll
  · refine List.filter_eq_self.mpr fun e he => ?_
    have he : e.toRuleFailure ∈ (Survey.ofModel m (.ofList [r] registered')).failures := by
      rw [← herrors]
      exact List.mem_map_of_mem he
    rw [← hfailuresAll] at he
    exact (List.mem_filter.mp he).2

/-- With another check for one rule there is an analysis unless that check fails in a way that
cannot be put on record. -/
theorem exists_swapCheck_iff (ha : ofModel m (.ofList rules registered) = .ok a) (id : String)
    (check : Option Check) :
    (∃ a', ofModel m (.ofList (rules.map (.swapCheck id check)) registered) = .ok a') ↔
      ∀ f ∈ (Survey.ofModel m (.ofList (rules.map (.swapCheck id check)) registered)).failures,
        f.ruleId = id → f.Recordable := by
  rw [exists_ofModel_iff (ActiveRules.indexed_ofList _ _)]
  refine forall₂_congr fun f hf => ⟨fun h _ => h, fun h => ?_⟩
  by_cases hid : f.ruleId = id
  · exact h hid
  · have hsame := Survey.attributed_eq_of_filter_eq m (fun other => other ≠ id)
      (ActiveRules.filter_rules_swapCheck rules registered id check)
    have hf : f ∈ ((Survey.ofModel m (.ofList rules registered)).attributed (· ≠ id)).2 := by
      rw [← hsame]
      exact List.mem_filter.mpr ⟨hf, decide_eq_true hid⟩
    exact recordable_of_mem_attributed (ActiveRules.indexed_ofList rules registered) ha hf

end Analysis

/-- Rules do not interfere. In a run of rules with distinct ids, a rule has the findings and the
failures it has when it is the only one; another check in its place, whatever it does and wherever
it fails, changes nothing of the other rules; and each evaluation that fails adds one failure, with
the id of the rule and the place of the node, and none of the findings it had come to. There is an
analysis as long as every failure can be put on record, so another check takes it away only by
failures of its own that cannot be. -/
theorem rules_do_not_interfere (m : Model) (rules : List ActiveRule) (registered : List String)
    (hids : (rules.map ActiveRule.id).Nodup) (r : ActiveRule) (hr : r ∈ rules) :
    let rs := ActiveRules.ofList rules registered
    let pass := Evaluation.ofForest rs [] m.roots
    ((∃ a, Analysis.ofModel m rs = .ok a) ↔ ∀ f ∈ Evaluation.failures m pass, f.Recordable) ∧
    ∀ a, Analysis.ofModel m rs = .ok a →
      (∀ registered', ∃ alone, Analysis.ofModel m (.ofList [r] registered') = .ok alone ∧
        a.attributed (· = r.id) = (alone.findings, alone.errors)) ∧
      (∀ check, let rs' := ActiveRules.ofList (rules.map (.swapCheck r.id check)) registered
        (∀ a', Analysis.ofModel m rs' = .ok a' →
          a'.attributed (· ≠ r.id) = a.attributed (· ≠ r.id)) ∧
        ((∃ a', Analysis.ofModel m rs' = .ok a') ↔
          ∀ f ∈ Evaluation.failures m (Evaluation.ofForest rs' [] m.roots),
            f.ruleId = r.id → f.Recordable)) ∧
      a.errors.map RuleError.toRuleFailure = Evaluation.failures m pass ∧
      a.findings = Evaluation.findings m pass := by
  intro rs pass
  have hindexed := ActiveRules.indexed_ofList rules registered
  have hfailures : ∀ rs', (Survey.ofModel m rs').failures =
      Evaluation.failures m (Evaluation.ofForest rs' [] m.roots) :=
    fun rs' => Evaluation.flatMap_failures m _
  have hexists : ∀ {rs' : ActiveRules}, rs'.Indexed → ((∃ a, Analysis.ofModel m rs' = .ok a) ↔
      ∀ f ∈ Evaluation.failures m (Evaluation.ofForest rs' [] m.roots), f.Recordable) := by
    intro rs' hindexed'
    rw [Analysis.exists_ofModel_iff hindexed', hfailures]
  refine ⟨hexists hindexed, fun a ha => ⟨fun registered' => ?_, fun check => ⟨?_, ?_⟩, ?_, ?_⟩⟩
  · exact Analysis.exists_alone hids hr ha registered'
  · intro a' ha'
    have hindexed' := ActiveRules.indexed_ofList (rules.map (.swapCheck r.id check)) registered
    rw [Analysis.ofModel_eq m hindexed'] at ha'
    rw [Analysis.ofModel_eq m hindexed] at ha
    exact Analysis.attributed_eq_of_surveys ha' ha
      (Survey.attributed_eq_of_filter_eq m (fun id => id ≠ r.id)
        (ActiveRules.filter_rules_swapCheck rules registered r.id check))
  · rw [← hfailures]
    exact Analysis.exists_swapCheck_iff ha r.id check
  · rw [← hfailures]
    exact ((Analysis.ofModel_eq_ok_iff hindexed).mp ha).2.1
  · rw [← Evaluation.flatMap_findings]
    exact ((Analysis.ofModel_eq_ok_iff hindexed).mp ha).1

/-- A rule that fails at every component after a remark. -/
def halfRule : ActiveRule where
  descriptor :=
    { id := "half-rule", category := .style, severity := .warning, description := ""
      kinds := [.component]
      check := some fun ctx => ⟨[ctx.remark "first" ""], some (.raised .runtime "boom")⟩ }
  severity := "warning"
  params := []

/-- A rule that remarks on every component when it is left. -/
def wholeRule : ActiveRule where
  descriptor :=
    { id := "whole-rule", category := .style, severity := .info, description := ""
      kinds := [.component], phase := .exit
      check := some fun ctx => ⟨[ctx.remark "all of it" ""], none⟩ }
  severity := "info"
  params := []

/-- A component with another one inside. -/
def nestedComponents : Model := .ofForest "A"
  [.node ⟨.component, some "Outer", ⟨"A", 1, 1, 9, 2⟩, [], []⟩
    [.node ⟨.component, some "Inner", ⟨"A", 2, 3, 8, 4⟩, [], []⟩ []]] [] []

theorem halfRule_does_not_interfere :
    ∃ a alone, Analysis.ofModel nestedComponents (.ofList [wholeRule, halfRule] []) = .ok a ∧
      Analysis.ofModel nestedComponents (.ofList [halfRule] []) = .ok alone ∧
      a.attributed (· = "half-rule") = (alone.findings, alone.errors) ∧
      ∀ check a',
        Analysis.ofModel nestedComponents
          (.ofList ([wholeRule, halfRule].map (.swapCheck "half-rule" check)) []) = .ok a' →
        a'.attributed (· ≠ "half-rule") = a.attributed (· ≠ "half-rule") := by
  obtain ⟨hexists, hlaws⟩ := rules_do_not_interfere nestedComponents [wholeRule, halfRule] []
    (by decide) halfRule (by simp)
  have hrecordable : ∀ f ∈ Evaluation.failures nestedComponents (Evaluation.ofForest
      (.ofList [wholeRule, halfRule] []) [] nestedComponents.roots), f.Recordable := by
    intro f hf
    obtain ⟨e, he, hfailure⟩ := List.mem_filterMap.mp hf
    obtain ⟨why, hwhy, rfl⟩ := Option.map_eq_some_iff.mp hfailure
    obtain ⟨hrule, hvisit⟩ := Evaluation.of_mem_ofForest he
    have hshort : ∀ v ∈ Tree.visitsAmong [] nestedComponents.roots,
        v.tree.span.startLine.natAbs < 10000 ∧ v.tree.span.startCol.natAbs < 10000 := by decide
    obtain ⟨hline, hcol⟩ := hshort _ hvisit
    rw [(ActiveRules.rules_ofList_perm _ _).mem_iff, List.mem_pair] at hrule
    refine ⟨?_, ?_⟩
    · rw [Place.isShort_ofSpan, Span.isShort_of_natAbs_lt hline hcol]
    · rcases hrule with hrule | hrule
      · simp [Evaluation.production, hrule, wholeRule] at hwhy
      · simp only [Evaluation.production, hrule, halfRule, Option.some.injEq] at hwhy
        subst hwhy
        exact ⟨_, rfl⟩
  obtain ⟨a, ha⟩ := hexists.mpr hrecordable
  obtain ⟨halone, hothers, -⟩ := hlaws a ha
  obtain ⟨alone, hmade, hsame⟩ := halone []
  exact ⟨a, alone, ha, hmade, hsame, fun check a' ha' => (hothers check).1 a' ha'⟩

/-- A component that starts on a line with too many digits. -/
def farComponent : Model := .ofForest "A"
  [.node ⟨.component, some "Far", ⟨"A", Number.longInteger, 1, Number.longInteger, 9⟩, [], []⟩ []]
  [] []

/-- A failure that cannot be put on record takes the findings of another rule with it. -/
theorem failures_end_the_analysis :
    (∃ a, Analysis.ofModel farComponent (.ofList [wholeRule] []) = .ok a ∧ a.findings ≠ []) ∧
      ¬ ∃ a, Analysis.ofModel farComponent (.ofList [wholeRule, halfRule] []) = .ok a := by
  constructor
  · have hrules : (ActiveRules.ofList [wholeRule] []).rules = [wholeRule] :=
      List.perm_singleton.mp (ActiveRules.rules_ofList_perm _ _)
    have hpass : Evaluation.ofForest (.ofList [wholeRule] []) [] farComponent.roots =
        farComponent.roots.map fun t => ⟨wholeRule, ⟨t, []⟩⟩ := by
      simp only [farComponent, Model.ofForest, Evaluation.ofForest, Evaluation.ofTree,
        Evaluation.atNode, hrules]
      rfl
    have hfailures : (Survey.ofModel farComponent (.ofList [wholeRule] [])).failures = [] := by
      rw [Survey.ofModel, hpass]
      rfl
    obtain ⟨a, ha⟩ : ∃ a, Analysis.ofModel farComponent (.ofList [wholeRule] []) = .ok a := by
      rw [Analysis.exists_ofModel_iff (ActiveRules.indexed_ofList _ _), hfailures]
      exact fun f hf => absurd hf List.not_mem_nil
    have hfindings := ((Analysis.ofModel_eq_ok_iff (ActiveRules.indexed_ofList _ _)).mp ha).1
    refine ⟨a, ha, ?_⟩
    rw [hfindings, Survey.ofModel, hpass]
    exact List.cons_ne_nil _ _
  · rw [Analysis.exists_ofModel_iff (ActiveRules.indexed_ofList _ _)]
    intro h
    let start : Tree.Visit (Entry Kind) :=
      ⟨.node ⟨.component, some "Far", ⟨"A", Number.longInteger, 1, Number.longInteger, 9⟩, [], []⟩
        [], []⟩
    have hmet : ⟨halfRule, start⟩ ∈
        Evaluation.ofForest (.ofList [wholeRule, halfRule] []) [] farComponent.roots := by
      rw [(Evaluation.ofForest_perm _ _ _).mem_iff, List.mem_flatMap]
      refine ⟨start, List.mem_cons_self, List.mem_map.mpr ⟨halfRule, ?_, rfl⟩⟩
      rw [List.mem_filter, (ActiveRules.rules_ofList_perm _ _).mem_iff]
      exact ⟨by simp, rfl⟩
    have hfar := (h _ (List.mem_flatMap.mpr ⟨_, hmet, List.mem_singleton_self _⟩)).1
    rw [Place.isShort_ofSpan, Span.isShort, Bool.and_eq_true] at hfar
    exact absurd hfar.1 (Bool.eq_false_iff.mp Number.isShort_longInteger)

end ComponentLint

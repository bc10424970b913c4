-- The analysis as a plain recursion. The agenda of the walk holds nodes to
-- enter and nodes to leave; what it brings to light is what the rules find
-- when each node is entered, then all below it, and then it is left. There is
-- an analysis unless one of the failures on the way cannot be put on record.
import ComponentLint.Proofs.Layout
import ComponentLint.Proofs.RuleOrder
import ComponentLint.Report.Analysis

namespace ComponentLint

open ComponentLint.Number

/-! ## Failures on record -/

namespace RuleFailure

theorem recorded_eq_ok_iff {f : RuleFailure} {e : RuleError} :
    f.recorded = .ok e ↔ e.toRuleFailure = f := by
  unfold recorded
  split
  · rename_i message h
    constructor
    · intro he
      cases he
      rfl
    · rintro rfl
      have hmessage : message = e.message := Except.ok.inj (h.symm.trans e.worded)
      subst hmessage
      rfl
  · rename_i long h
    constructor
    · intro he
      cases he
    · rintro rfl
      rw [e.worded] at h
      cases h

theorem mapM_recorded_eq_ok_iff {fs : List RuleFailure} {es : List RuleError} :
    fs.mapM recorded = .ok es ↔ es.map RuleError.toRuleFailure = fs := by
  induction fs generalizing es with
  | nil =>
    rw [List.mapM_nil, List.map_eq_nil_iff]
    exact ⟨fun h => (Except.ok.inj h).symm, fun h => h ▸ rfl⟩
  | cons f fs ih =>
    rw [mapM_cons_eq_ok_iff]
    constructor
    · rintro ⟨e, rest, he, hrest, rfl⟩
      rw [List.map_cons, recorded_eq_ok_iff.mp he, ih.mp hrest]
    · intro h
      obtain ⟨e, rest, rfl, he, hrest⟩ := List.map_eq_cons_iff.mp h
      exact ⟨e, rest, recorded_eq_ok_iff.mpr he, ih.mpr hrest, rfl⟩

/-- A failure can be put on record when its place and its cause can be written. -/
def Recordable (f : RuleFailure) : Prop :=
  f.place.isShort = true ∧ ∃ text, f.failure.text = .ok text

theorem exists_recorded_iff {f : RuleFailure} : (∃ e, f.recorded = .ok e) ↔ f.Recordable := by
  have hwording : (∃ text, f.wording = .ok text) ↔ f.Recordable := by
    unfold wording Failure.toText Recordable
    rw [Place.toText_eq]
    cases f.place.isShort <;> cases f.failure.text <;>
      simp [unlessLong, bind, Except.bind, pure, Except.pure]
  rw [← hwording]
  constructor
  · rintro ⟨e, he⟩
    rw [← recorded_eq_ok_iff.mp he]
    exact ⟨e.message, e.worded⟩
  · rintro ⟨text, htext⟩
    exact ⟨⟨f, text, htext⟩, recorded_eq_ok_iff.mpr rfl⟩

end RuleFailure

/-! ## The pure model -/

/-- What a walk brings to light, with failures that may have no words. -/
structure Survey where
  findings : List Finding := []
  failures : List RuleFailure := []
  visited : Nat := 0

namespace Survey

def append (s t : Survey) : Survey :=
  ⟨s.findings ++ t.findings, s.failures ++ t.failures, s.visited + t.visited⟩

/-- The analysis with all failures on record. -/
def recorded (s : Survey) : Except LongInteger Analysis := do
  return ⟨s.findings, ← s.failures.mapM RuleFailure.recorded, s.visited⟩

theorem recorded_eq_ok_iff {s : Survey} {a : Analysis} :
    s.recorded = .ok a ↔ a.findings = s.findings ∧
      a.errors.map RuleError.toRuleFailure = s.failures ∧ a.visited = s.visited := by
  unfold recorded
  simp only [bind_eq_ok_iff, RuleFailure.mapM_recorded_eq_ok_iff]
  constructor
  · rintro ⟨errors, herrors, ha⟩
    cases ha
    exact ⟨rfl, herrors, rfl⟩
  · rintro ⟨hfindings, herrors, hvisited⟩
    exact ⟨a.errors, herrors, by rw [← hfindings, ← hvisited]; rfl⟩

theorem exists_recorded_iff {s : Survey} :
    (∃ a, s.recorded = .ok a) ↔ ∀ f ∈ s.failures, f.Recordable := by
  simp only [← RuleFailure.exists_recorded_iff, ← exists_mapM_iff]
  unfold recorded
  cases s.failures.mapM RuleFailure.recorded <;> simp [bind, Except.bind, pure, Except.pure]

theorem recorded_append (s t : Survey) :
    (s.append t).recorded = do return (← s.recorded).append (← t.recorded) := by
  unfold recorded append
  simp only [List.mapM_append, bind_assoc, pure_bind]
  rfl

end Survey

/-- What a rule brings to light at a node. -/
def ActiveRule.survey (r : ActiveRule) (m : Model) (v : Tree.Visit (Entry Kind)) : Survey :=
  match r.descriptor.check with
  | none => {}
  | some check =>
    let produced := check ⟨v.tree, v.ancestors, m, r.params⟩
    match produced.failure with
    | some failure => { failures := [⟨r.id, Place.ofSpan v.tree.span, failure⟩] }
    | none => { findings := produced.remarks.map r.finding }

theorem ActiveRule.evaluate_eq (r : ActiveRule) (m : Model) (v : Tree.Visit (Entry Kind)) :
    r.evaluate m v = (r.survey m v).recorded := by
  unfold evaluate survey
  cases r.descriptor.check with
  | none => rfl
  | some check =>
    dsimp only
    cases (check ⟨v.tree, v.ancestors, m, r.params⟩).failure with
    | none => rfl
    | some failure =>
      simp only [Survey.recorded, List.mapM_cons, List.mapM_nil, bind_assoc, pure_bind]

/-! ## Evaluations in order -/

/-- A rule that looks at a node of a walk. -/
structure Evaluation where
  rule : ActiveRule
  visit : Tree.Visit (Entry Kind)

namespace Evaluation

/-- What an evaluation brings to light. -/
def result (m : Model) (e : Evaluation) : Survey := e.rule.survey m e.visit

/-- The evaluations at a node in a phase: the rules of the run that look at it then, in order. -/
def atNode (rs : ActiveRules) (phase : Phase) (v : Tree.Visit (Entry Kind)) : List Evaluation :=
  (rs.rules.filter fun r => r.looksAt v.tree.kind phase).map (⟨·, v⟩)

mutual

/-- The evaluations of a tree: on entering its root, in the trees below, and on leaving the root. -/
def ofTree (rs : ActiveRules) (chain : List Node) : Node → List Evaluation
  | .node e ts =>
    atNode rs .enter ⟨.node e ts, chain⟩ ++ ofForest rs (chain ++ [.node e ts]) ts
      ++ atNode rs .exit ⟨.node e ts, chain⟩

/-- The evaluations of the trees of a forest, one tree after the other. -/
def ofForest (rs : ActiveRules) (chain : List Node) : List Node → List Evaluation
  | [] => []
  | t :: ts => ofTree rs chain t ++ ofForest rs chain ts

end

theorem ofForest_cons (rs : ActiveRules) (chain : List Node) (e : Entry Kind) (ts us : List Node) :
    ofForest rs chain (.node e ts :: us) =
      atNode rs .enter ⟨.node e ts, chain⟩ ++ ofForest rs (chain ++ [.node e ts]) ts
        ++ atNode rs .exit ⟨.node e ts, chain⟩ ++ ofForest rs chain us := by
  simp only [ofForest, ofTree]

end Evaluation

/-! ## The agenda -/

namespace Survey

/-- What several evaluations bring to light one after the other, over so many nodes. -/
def ofEvaluations (m : Model) (es : List Evaluation) (visited : Nat) : Survey :=
  ⟨es.flatMap fun e => (e.result m).findings, es.flatMap fun e => (e.result m).failures, visited⟩

/-- What the recursive pass over a unit brings to light. -/
def ofModel (m : Model) (rs : ActiveRules) : Survey :=
  ofEvaluations m (Evaluation.ofForest rs [] m.roots) m.walk.length

theorem append_ofEvaluations (m : Model) (es fs : List Evaluation) (i j : Nat) :
    (ofEvaluations m es i).append (ofEvaluations m fs j) = ofEvaluations m (es ++ fs) (i + j) := by
  simp [append, ofEvaluations]

theorem visited_survey (r : ActiveRule) (m : Model) (v : Tree.Visit (Entry Kind)) :
    (r.survey m v).visited = 0 := by
  unfold ActiveRule.survey
  cases r.descriptor.check with
  | none => rfl
  | some check =>
    dsimp only
    split
    · rfl
    · rfl

theorem ofEvaluations_cons (m : Model) (e : Evaluation) (es : List Evaluation) :
    ofEvaluations m (e :: es) 0 = (e.result m).append (ofEvaluations m es 0) := by
  simp [append, ofEvaluations, Evaluation.result, visited_survey]

end Survey

namespace Analysis

/-- What was found so far, and then what a survey adds. -/
def adding (acc : Analysis) (s : Survey) : Except LongInteger Analysis := do
  return acc.append (← s.recorded)

theorem adding_nothing (acc : Analysis) (m : Model) :
    acc.adding (Survey.ofEvaluations m [] 0) = .ok acc := by
  have hnothing : acc.append {} = acc := by simp [append]
  exact congrArg Except.ok hnothing

theorem adding_append (acc : Analysis) (s t : Survey) :
    acc.adding (s.append t) = acc.adding s >>= fun acc => acc.adding t := by
  have happend : ∀ a b : Analysis, acc.append (a.append b) = (acc.append a).append b := by
    simp [append, Nat.add_assoc]
  unfold adding
  rw [Survey.recorded_append]
  simp only [bind_assoc, pure_bind, happend]

/-- Offering a node to rules adds what each of them finds there. -/
theorem offer_eq (m : Model) (v : Tree.Visit (Entry Kind)) (rules : List ActiveRule)
    (acc : Analysis) :
    offer m v rules acc = acc.adding (Survey.ofEvaluations m (rules.map (⟨·, v⟩)) 0) := by
  unfold offer
  induction rules generalizing acc with
  | nil => exact (adding_nothing acc m).symm
  | cons r rules ih =>
    rw [List.foldlM_cons, List.map_cons, Survey.ofEvaluations_cons, adding_append, funext ih,
      ActiveRule.evaluate_eq]
    rfl

theorem run_enter (m : Model) {rs : ActiveRules} (h : rs.Indexed) (v : Tree.Visit (Entry Kind))
    (rest : List Task) (acc : Analysis) :
    run m rs (.enter v :: rest) acc =
      acc.adding (Survey.ofEvaluations m (Evaluation.atNode rs .enter v) 1) >>=
        run m rs (below v ++ .leave v :: rest) := by
  have hcounted : Survey.ofEvaluations m (Evaluation.atNode rs .enter v) 1 =
      (Survey.ofEvaluations m [] 1).append
        (Survey.ofEvaluations m (Evaluation.atNode rs .enter v) 0) := by
    rw [Survey.append_ofEvaluations, List.nil_append]
  have hone : acc.append ⟨[], [], 1⟩ = { acc with visited := acc.visited + 1 } := by
    simp [append]
  have hentered : acc.adding (Survey.ofEvaluations m [] 1) =
      .ok { acc with visited := acc.visited + 1 } := congrArg Except.ok hone
  rw [run, h, offer_eq, hcounted, adding_append, hentered]
  rfl

theorem run_leave (m : Model) {rs : ActiveRules} (h : rs.Indexed) (v : Tree.Visit (Entry Kind))
    (rest : List Task) (acc : Analysis) :
    run m rs (.leave v :: rest) acc =
      acc.adding (Survey.ofEvaluations m (Evaluation.atNode rs .exit v) 0) >>= run m rs rest := by
  rw [run, h, offer_eq]
  rfl

/-- An agenda that starts with entering the trees of a forest does all of that forest first. -/
theorem run_enter_append (m : Model) {rs : ActiveRules} (h : rs.Indexed) (ts chain : List Node)
    (rest : List Task) (acc : Analysis) :
    run m rs (ts.map (fun t => .enter ⟨t, chain⟩) ++ rest) acc =
      acc.adding (Survey.ofEvaluations m (Evaluation.ofForest rs chain ts) (Tree.forestSize ts)) >>=
        run m rs rest := by
  induction ts using Tree.forest_induction generalizing chain rest acc with
  | nil => rw [Evaluation.ofForest, Tree.forestSize, adding_nothing]; rfl
  | cons e ts us ihBelow ihBeside =>
    have hsize : Tree.forestSize (.node e ts :: us) =
        1 + Tree.forestSize ts + 0 + Tree.forestSize us := by
      simp only [Tree.forestSize, Tree.size]
      omega
    -- enter the root, go through the trees below it, leave it, go on with the trees beside it
    rw [List.map_cons, List.cons_append, run_enter m h]
    simp only [below, Tree.children]
    rw [funext (ihBelow (chain ++ [Tree.node e ts]) _), funext (run_leave m h _ _),
      funext (ihBeside chain rest)]
    rw [Evaluation.ofForest_cons, hsize, ← Survey.append_ofEvaluations,
      ← Survey.append_ofEvaluations, ← Survey.append_ofEvaluations, adding_append, adding_append,
      adding_append]
    simp only [bind_assoc]

/-- The analysis of a unit is the recursive pass over its forest. -/
theorem ofModel_eq (m : Model) {rs : ActiveRules} (h : rs.Indexed) :
    ofModel m rs = (Survey.ofModel m rs).recorded := by
  have hrun := run_enter_append m h m.roots [] [] {}
  have hempty : ∀ s : Survey, ({} : Analysis).adding s = s.recorded := by
    intro s
    have hself : ∀ a : Analysis, ({} : Analysis).append a = a := by simp [append]
    unfold adding
    simp only [hself]
    exact bind_pure _
  have hdone : ∀ a, run m rs [] a = .ok a := fun a => by rw [run]
  have hwalk : Tree.forestSize m.roots = m.walk.length := by
    rw [Model.walk, Tree.walk_eq_visitsAmong, Tree.length_visitsAmong]
  rw [List.append_nil, hempty, hwalk, funext hdone] at hrun
  exact hrun.trans (bind_pure _)

theorem ofModel_eq_ok_iff {m : Model} {rs : ActiveRules} (h : rs.Indexed) {a : Analysis} :
    ofModel m rs = .ok a ↔ a.findings = (Survey.ofModel m rs).findings ∧
      a.errors.map RuleError.toRuleFailure = (Survey.ofModel m rs).failures ∧
      a.visited = m.walk.length := by
  rw [ofModel_eq m h, Survey.recorded_eq_ok_iff]
  rfl

theorem exists_ofModel_iff {m : Model} {rs : ActiveRules} (h : rs.Indexed) :
    (∃ a, ofModel m rs = .ok a) ↔ ∀ f ∈ (Survey.ofModel m rs).failures, f.Recordable := by
  rw [ofModel_eq m h, Survey.exists_recorded_iff]

end Analysis

/-! ## Every pair once -/

namespace ActiveRule

/-- Whether the rule has a check and looks at nodes of a kind, in whichever phase. -/
def inspects (r : ActiveRule) (kind : Kind) : Bool :=
  r.descriptor.check.isSome && r.descriptor.kinds.contains kind

theorem looksAt_eq (r : ActiveRule) (kind : Kind) (phase : Phase) :
    r.looksAt kind phase = (r.descriptor.phase == phase && r.inspects kind) := by
  unfold looksAt inspects
  rw [Bool.and_comm r.descriptor.check.isSome, Bool.and_assoc]

end ActiveRule

namespace Evaluation

/-- The rules that look at a node when it is entered or when it is left are those that inspect its
kind: each of them has one of the two phases. -/
theorem atNode_perm (rs : ActiveRules) (v : Tree.Visit (Entry Kind)) :
    (atNode rs .enter v ++ atNode rs .exit v).Perm
      ((rs.rules.filter fun r => r.inspects v.tree.kind).map (⟨·, v⟩)) := by
  have hexit : ∀ phase : Phase, (phase == .exit) = !(phase == .enter) := by
    intro phase
    cases phase <;> rfl
  unfold atNode
  simp only [ActiveRule.looksAt_eq, hexit, ← List.filter_filter]
  rw [← List.map_append]
  exact (List.filter_append_perm _ _).map _

/-- Over a forest, each node meets each rule that inspects its kind once. -/
theorem ofForest_perm (rs : ActiveRules) (chain ts : List Node) :
    (ofForest rs chain ts).Perm ((Tree.visitsAmong chain ts).flatMap fun v =>
      (rs.rules.filter fun r => r.inspects v.tree.kind).map (⟨·, v⟩)) := by
  induction ts using Tree.forest_induction generalizing chain with
  | nil => simp [ofForest, Tree.visitsAmong]
  | cons e ts us ihBelow ihBeside =>
    rw [ofForest_cons, Tree.visitsAmong_cons, List.cons_append, List.flatMap_cons,
      List.flatMap_append]
    refine List.Perm.trans ?_ ((atNode_perm rs _).append ((ihBelow _).append (ihBeside _)))
    -- what is found on leaving the root moves up to what is found on entering it
    rw [← List.append_assoc (_ ++ _)]
    refine List.Perm.append_right _ ?_
    rw [List.append_assoc, List.append_assoc]
    exact List.perm_append_comm.append_left _

end Evaluation

/-! ## Where findings come from -/

theorem Evaluation.of_mem_ofForest {rs : ActiveRules} {chain ts : List Node} {e : Evaluation}
    (h : e ∈ ofForest rs chain ts) : e.rule ∈ rs.rules ∧ e.visit ∈ Tree.visitsAmong chain ts := by
  obtain ⟨v, hv, he⟩ := List.mem_flatMap.mp ((ofForest_perm rs chain ts).mem_iff.mp h)
  obtain ⟨r, hr, rfl⟩ := List.mem_map.mp he
  exact ⟨(List.mem_filter.mp hr).1, hv⟩

/-- A finding of a rule comes from a remark of its check. -/
theorem ActiveRule.of_mem_survey {r : ActiveRule} {m : Model} {v : Tree.Visit (Entry Kind)}
    {f : Finding} (h : f ∈ (r.survey m v).findings) :
    ∃ check, r.descriptor.check = some check ∧
      ∃ remark ∈ (check ⟨v.tree, v.ancestors, m, r.params⟩).remarks, f = r.finding remark := by
  unfold survey at h
  cases hcheck : r.descriptor.check with
  | none => simp [hcheck] at h
  | some check =>
    refine ⟨check, rfl, ?_⟩
    simp only [hcheck] at h
    split at h
    · cases h
    · obtain ⟨remark, hremark, rfl⟩ := List.mem_map.mp h
      exact ⟨remark, hremark, rfl⟩

/-- A failure of a rule is that of its check at the node. -/
theorem ActiveRule.of_mem_failures_survey {r : ActiveRule} {m : Model}
    {v : Tree.Visit (Entry Kind)} {f : RuleFailure} (h : f ∈ (r.survey m v).failures) :
    ∃ check, r.descriptor.check = some check ∧
      f.failure ∈ (check ⟨v.tree, v.ancestors, m, r.params⟩).failure ∧
      f.place = Place.ofSpan v.tree.span := by
  unfold survey at h
  cases hcheck : r.descriptor.check with
  | none => simp [hcheck] at h
  | some check =>
    refine ⟨check, rfl, ?_⟩
    simp only [hcheck] at h
    split at h
    · rename_i failure hfailure
      cases List.mem_singleton.mp h
      exact ⟨hfailure, rfl⟩
    · cases h

/-- Every finding of a survey is one of a rule of the run, with the severity it has there. -/
theorem Survey.rule_of_mem_findings {m : Model} {rs : ActiveRules} {f : Finding}
    (h : f ∈ (ofModel m rs).findings) :
    ∃ r ∈ rs.rules, f.ruleId = r.id ∧ f.severity = r.severity := by
  obtain ⟨e, he, hf⟩ := List.mem_flatMap.mp h
  obtain ⟨check, -, remark, -, rfl⟩ := ActiveRule.of_mem_survey hf
  exact ⟨e.rule, (Evaluation.of_mem_ofForest he).1, rfl, rfl⟩

/-! ## The analysis as a whole -/

/-- Recording what several evaluations bring to light is evaluating them one after the other. -/
theorem Survey.recorded_ofEvaluations (m : Model) (es : List Evaluation) (visited : Nat) :
    (ofEvaluations m es visited).recorded =
      (es.mapM fun e => e.rule.evaluate m e.visit) >>= fun found =>
        .ok ⟨found.flatMap Analysis.findings, found.flatMap Analysis.errors, visited⟩ := by
  induction es generalizing visited with
  | nil => rfl
  | cons e es ih =>
    have hsplit : ofEvaluations m (e :: es) visited =
        (e.result m).append (ofEvaluations m es visited) := by
      simp [append, ofEvaluations, Evaluation.result, visited_survey]
    have hvisited : ∀ a, (e.result m).recorded = .ok a → a.visited = 0 := fun a ha =>
      (recorded_eq_ok_iff.mp ha).2.2.trans (visited_survey _ _ _)
    rw [hsplit, recorded_append, ih, List.mapM_cons, ActiveRule.evaluate_eq]
    change ((e.result m).recorded >>= _) = (((e.result m).recorded >>= _) >>= _)
    cases hfirst : (e.result m).recorded with
    | error long => rfl
    | ok a =>
      cases es.mapM fun e => e.rule.evaluate m e.visit with
      | error long => rfl
      | ok found => simp [bind, Except.bind, pure, Except.pure, Analysis.append, hvisited a hfirst]

/-- The analysis of a unit by the rules of a run is the recursive pass: the rules stand in the order
of their ids, what they find and where they fail is listed as the pass comes to it, every rule with
a check meets every node of a kind it inspects once, and every node is counted. -/
theorem analysis_is_the_recursive_pass (m : Model) (rules : List ActiveRule)
    (registered : List String) :
    let rs := ActiveRules.ofList rules registered
    let pass := Evaluation.ofForest rs [] m.roots
    (rs.rules.Perm rules ∧ rs.rules.Pairwise fun a b => a.id ≤ b.id) ∧
      Analysis.ofModel m rs = ((pass.mapM fun e => e.rule.evaluate m e.visit) >>= fun found =>
        .ok ⟨found.flatMap Analysis.findings, found.flatMap Analysis.errors, m.walk.length⟩) ∧
      pass.Perm (m.walk.flatMap fun v =>
        (rs.rules.filter fun r => r.inspects v.tree.kind).map (⟨·, v⟩)) ∧
      (m.Accepted → m.walk.length = m.size) := by
  intro rs pass
  have hpass := Analysis.ofModel_eq m (ActiveRules.indexed_ofList rules registered)
  have hwalk : m.walk = Tree.visitsAmong [] m.roots := Tree.walk_eq_visitsAmong m.roots
  refine ⟨⟨ActiveRules.rules_ofList_perm rules registered,
    ActiveRules.rules_ofList_sorted rules registered⟩, ?_, ?_, ?_⟩
  · rw [hpass]
    exact Survey.recorded_ofEvaluations m pass m.walk.length
  · rw [hwalk]
    exact Evaluation.ofForest_perm rs [] m.roots
  · exact fun hm => hm.size_eq.symm

end ComponentLint

-- The pass of one rule. What an analysis holds of a rule is what the rule finds
-- alone: at one node after the other in pre-order if it looks at them when they
-- are entered, and in post-order if it looks at them when they are left.
import ComponentLint.Proofs.RuleIsolation

namespace ComponentLint

/-! ## Post-order -/

namespace Tree

variable {α : Type}

mutual

/-- The nodes of a tree in post-order: those below the root, then the root. -/
def departures (chain : List (Tree α)) : Tree α → List (Visit α)
  | node v ts => departuresAmong (chain ++ [node v ts]) ts ++ [⟨node v ts, chain⟩]

/-- The nodes of the trees of a forest in post-order. -/
def departuresAmong (chain : List (Tree α)) : List (Tree α) → List (Visit α)
  | [] => []
  | t :: ts => departures chain t ++ departuresAmong chain ts

end

theorem departuresAmong_cons (chain : List (Tree α)) (v : α) (ts us : List (Tree α)) :
    departuresAmong chain (node v ts :: us) =
      departuresAmong (chain ++ [node v ts]) ts ++ [⟨node v ts, chain⟩]
        ++ departuresAmong chain us := by
  simp only [departuresAmong, departures]

/-- Every node that is entered is left once. -/
theorem departuresAmong_perm (chain ts : List (Tree α)) :
    (departuresAmong chain ts).Perm (visitsAmong chain ts) := by
  induction ts using forest_induction generalizing chain with
  | nil => exact .nil
  | cons v ts us ihBelow ihBeside =>
    rw [departuresAmong_cons, visitsAmong_cons]
    apply List.Perm.append
    · exact (List.perm_append_singleton _ _).trans ((ihBelow _).cons _)
    · exact ihBeside _

end Tree

/-- The nodes of a unit as a walk leaves them. -/
def Model.departures (m : Model) : List (Tree.Visit (Entry Kind)) := Tree.departuresAmong [] m.roots

theorem Model.departures_perm (m : Model) : m.departures.Perm m.walk := by
  unfold Model.departures Model.walk
  rw [Tree.walk_eq_visitsAmong]
  exact Tree.departuresAmong_perm [] m.roots

/-! ## The evaluations of one rule -/

namespace Evaluation

variable {rs : ActiveRules} {r : ActiveRule}

theorem atNode_alone (halone : rs.rules = [r]) (phase : Phase) (v : Tree.Visit (Entry Kind)) :
    atNode rs phase v =
      if r.descriptor.phase == phase && r.inspects v.tree.kind then [⟨r, v⟩] else [] := by
  unfold atNode
  rw [halone, List.filter_cons, List.filter_nil, ActiveRule.looksAt_eq]
  split <;> rfl

/-- A rule that looks at nodes when they are entered meets them in the order of the walk. -/
theorem ofForest_of_enter (halone : rs.rules = [r]) (henter : r.descriptor.phase = .enter)
    (chain ts : List Node) :
    ofForest rs chain ts =
      ((Tree.visitsAmong chain ts).filter fun v => r.inspects v.tree.kind).map (⟨r, ·⟩) := by
  induction ts using Tree.forest_induction generalizing chain with
  | nil => rfl
  | cons e ts us ihBelow ihBeside =>
    rw [ofForest_cons, Tree.visitsAmong_cons, ihBelow, ihBeside, atNode_alone halone,
      atNode_alone halone, henter, List.cons_append, List.filter_cons, List.filter_append]
    have hkind : (Tree.node e ts).kind = e.kind := rfl
    by_cases hinspects : r.inspects e.kind
    · simp [hkind, hinspects]
    · simp [hkind, hinspects]

/-- A rule that looks at nodes when they are left meets them in post-order. -/
theorem ofForest_of_exit (halone : rs.rules = [r]) (hexit : r.descriptor.phase = .exit)
    (chain ts : List Node) :
    ofForest rs chain ts =
      ((Tree.departuresAmong chain ts).filter fun v => r.inspects v.tree.kind).map (⟨r, ·⟩) := by
  induction ts using Tree.forest_induction generalizing chain with
  | nil => rfl
  | cons e ts us ihBelow ihBeside =>
    rw [ofForest_cons, Tree.departuresAmong_cons, ihBelow, ihBeside, atNode_alone halone,
      atNode_alone halone, hexit, List.filter_append, List.filter_append, List.filter_cons,
      List.filter_nil]
    have hkind : (Tree.node e ts).kind = e.kind := rfl
    by_cases hinspects : r.inspects e.kind
    · simp [hkind, hinspects]
    · simp [hkind, hinspects]

end Evaluation

/-! ## The findings of one rule -/

namespace Survey

variable {m : Model} {rs : ActiveRules} {r : ActiveRule}

/-- What a survey holds of a rule is what the rule comes to when it runs alone. -/
theorem attributed_of_rule (hids : (rs.rules.map ActiveRule.id).Nodup)
    (hr : r ∈ rs.rules) :
    (ofModel m rs).attributed (fun id => id = r.id) =
      let pass := Evaluation.ofForest ⟨[r], [], []⟩ [] m.roots
      (pass.flatMap fun e => (e.result m).findings,
        pass.flatMap fun e => (e.result m).failures) := by
  let alone : ActiveRules := ⟨[r], [], []⟩
  have halone : alone.rules = rs.rules.filter fun q => q.id = r.id :=
    (filter_eq_singleton hids hr).symm
  rw [attributed_ofModel, Evaluation.filter_ofForest halone]

theorem findings_of_rule (hids : (rs.rules.map ActiveRule.id).Nodup)
    (hr : r ∈ rs.rules) :
    (ofModel m rs).findings.filter (fun f => f.ruleId = r.id) =
      (Evaluation.ofForest ⟨[r], [], []⟩ [] m.roots).flatMap fun e => (e.result m).findings :=
  congrArg Prod.fst (attributed_of_rule hids hr)

theorem findings_of_enter (hids : (rs.rules.map ActiveRule.id).Nodup)
    (hr : r ∈ rs.rules) (henter : r.descriptor.phase = .enter) :
    (ofModel m rs).findings.filter (fun f => f.ruleId = r.id) =
      (m.walk.filter fun v => r.inspects v.tree.kind).flatMap
        fun v => (r.survey m v).findings := by
  rw [findings_of_rule hids hr, Evaluation.ofForest_of_enter rfl henter,
    List.flatMap_map]
  unfold Model.walk
  rw [Tree.walk_eq_visitsAmong]
  rfl

theorem failures_of_enter (hids : (rs.rules.map ActiveRule.id).Nodup)
    (hr : r ∈ rs.rules) (henter : r.descriptor.phase = .enter) :
    (ofModel m rs).failures.filter (fun e => e.ruleId = r.id) =
      (m.walk.filter fun v => r.inspects v.tree.kind).flatMap
        fun v => (r.survey m v).failures := by
  refine (congrArg Prod.snd (attributed_of_rule hids hr)).trans ?_
  dsimp only
  rw [Evaluation.ofForest_of_enter rfl henter, List.flatMap_map]
  unfold Model.walk
  rw [Tree.walk_eq_visitsAmong]
  rfl

theorem findings_of_exit (hids : (rs.rules.map ActiveRule.id).Nodup)
    (hr : r ∈ rs.rules) (hexit : r.descriptor.phase = .exit) :
    (ofModel m rs).findings.filter (fun f => f.ruleId = r.id) =
      (m.departures.filter fun v => r.inspects v.tree.kind).flatMap
        fun v => (r.survey m v).findings := by
  rw [findings_of_rule hids hr, Evaluation.ofForest_of_exit rfl hexit, List.flatMap_map]
  rfl

end Survey

namespace ActiveRule

/-- What the check of a rule is given at a node of a walk. -/
def contextAt (r : ActiveRule) (m : Model) (v : Tree.Visit (Entry Kind)) : Context :=
  ⟨v.tree, v.ancestors, m, r.params⟩

/-- A check that fails is reported with its failure alone. -/
theorem failures_survey_of_failure {r : ActiveRule} {m : Model} {w : Tree.Visit (Entry Kind)}
    {check : Check} (hcheck : r.descriptor.check = some check) {failure : Failure}
    (hfailure : (check (r.contextAt m w)).failure = some failure) :
    (r.survey m w).failures = [⟨r.id, Place.ofSpan w.tree.span, failure⟩] := by
  unfold contextAt at hfailure
  unfold survey
  simp only [hcheck, hfailure]

/-- A check that does not fail is reported with all its remarks. -/
theorem findings_survey {r : ActiveRule} {check : Check}
    (hcheck : r.descriptor.check = some check) {m : Model} {v : Tree.Visit (Entry Kind)}
    (hfailure : (check (r.contextAt m v)).failure = none) :
    (r.survey m v).findings = (check (r.contextAt m v)).remarks.map r.finding := by
  unfold contextAt at hfailure ⊢
  simp only [survey, hcheck, hfailure]

/-- A check that says nothing where it fails is reported with all its remarks. -/
theorem findings_survey_ofAttempt {r : ActiveRule}
    {attempt : Context → Except Failure (List Remark)}
    (hcheck : r.descriptor.check = some (.ofAttempt attempt)) (m : Model)
    (v : Tree.Visit (Entry Kind)) :
    (r.survey m v).findings =
      (Check.ofAttempt attempt (r.contextAt m v)).remarks.map r.finding := by
  unfold contextAt
  simp only [survey, hcheck]
  unfold Check.ofAttempt
  split
  · rename_i failure hfailure
    split at hfailure
    · cases hfailure
    · rfl
  · rfl

end ActiveRule

end ComponentLint

-- The index of a run against a plain scan. The rules are listed one by one
-- under each of their kinds; what is found under a kind and a phase are the
-- rules that look there, by ascending ids, in whatever order the rules were
-- given and their kinds were gone through.
import ComponentLint.Proofs.RuleOrder

namespace ComponentLint

/-! ## The order of kinds -/

/-- An order in which the kinds of each rule are gone through. -/
structure KindOrder where
  kinds : ActiveRule → List Kind
  perm : ∀ r, (kinds r).Perm r.descriptor.kinds

namespace KindOrder

variable (order : KindOrder)

/-- The rule with its kinds in that order. -/
def relist (r : ActiveRule) : ActiveRule :=
  { r with descriptor := { r.descriptor with
      kinds := order.kinds r
      kinds_nodup := (order.perm r).nodup_iff.mpr r.descriptor.kinds_nodup } }

theorem id_relist (r : ActiveRule) : (order.relist r).id = r.id := rfl

theorem looksAt_relist (r : ActiveRule) (kind : Kind) (phase : Phase) :
    (order.relist r).looksAt kind phase = r.looksAt kind phase := by
  have hkinds : (order.kinds r).contains kind = r.descriptor.kinds.contains kind :=
    (order.perm r).contains_eq
  unfold ActiveRule.looksAt
  rw [← hkinds]
  rfl

end KindOrder

/-! ## The order of rules -/

/-- Rules stand by ascending ids in one way only. -/
theorem eq_of_perm_of_ascending {rules given : List ActiveRule}
    (hrules : rules.Pairwise fun a b => a.id < b.id)
    (hgiven : given.Pairwise fun a b => a.id < b.id) (h : rules.Perm given) : rules = given := by
  refine List.Perm.eq_of_pairwise ?_ hrules hgiven h
  intro a b _ _ hab hba
  exact absurd hba (String.lt_asymm hab)

namespace ActiveRules

variable {rules : List ActiveRule} (hids : (rules.map ActiveRule.id).Nodup)
include hids

/-- Rules with distinct ids come into the same order, however they were given. -/
theorem rules_ofList_eq_of_perm {given : List ActiveRule} (h : given.Perm rules)
    (registered : List String) :
    (ofList given registered).rules = (ofList rules registered).rules := by
  have hgiven : (given.map ActiveRule.id).Nodup := (h.map ActiveRule.id).nodup_iff.mpr hids
  refine eq_of_perm_of_ascending (rules_ofList_ascending hgiven registered)
    (rules_ofList_ascending hids registered) ?_
  have hperm := rules_ofList_perm rules registered
  exact ((rules_ofList_perm given registered).trans h).trans hperm.symm

/-- What the index gives for a node does not depend on the order in which the rules were given or
their kinds are gone through. -/
theorem forNode_relist (order : KindOrder) {given : List ActiveRule}
    (h : given.Perm (rules.map order.relist)) (registered : List String) (kind : Kind)
    (phase : Phase) :
    (ofList given registered).forNode kind phase =
      ((ofList rules registered).rules.filter fun r => r.looksAt kind phase).map order.relist := by
  have hids' : ((rules.map order.relist).map ActiveRule.id).Nodup := by
    rw [List.map_map]
    exact hids
  rw [indexed_ofList, rules_ofList_eq_of_perm hids' h, rules_ofList_map order.id_relist,
    List.filter_map]
  congr 2
  funext r
  exact order.looksAt_relist r kind phase

end ActiveRules

/-- For rules with distinct ids, the index over them answers like a scan through the rules by
ascending ids that takes those which have a check, the phase and the kind, each once. It does so
whatever the order in which the rules were given and in which the kinds of each are gone through. -/
theorem index_answers_like_a_scan (rules : List ActiveRule) (registered : List String)
    (hids : (rules.map ActiveRule.id).Nodup) :
    ∃ sorted : List ActiveRule, sorted.Perm rules ∧ sorted.Pairwise (fun a b => a.id < b.id) ∧
      ∀ kind phase,
        (ActiveRules.ofList rules registered).forNode kind phase =
          sorted.filter (fun r => r.looksAt kind phase) ∧
        ((sorted.filter fun r => r.looksAt kind phase).map ActiveRule.id).Nodup ∧
        ∀ (order : KindOrder) (given : List ActiveRule), given.Perm (rules.map order.relist) →
          (ActiveRules.ofList given registered).forNode kind phase =
            (sorted.filter fun r => r.looksAt kind phase).map order.relist := by
  have hperm := ActiveRules.rules_ofList_perm rules registered
  refine ⟨(ActiveRules.ofList rules registered).rules, hperm,
    ActiveRules.rules_ofList_ascending hids registered, fun kind phase => ⟨?_, ?_, ?_⟩⟩
  · exact ActiveRules.indexed_ofList rules registered kind phase
  · have hsorted := (hperm.map ActiveRule.id).nodup_iff.mpr hids
    exact (List.filter_sublist.map ActiveRule.id).nodup hsorted
  · intro order given hgiven
    exact ActiveRules.forNode_relist hids order hgiven registered kind phase

/-- A rule that looks at three kinds of nodes when they are left. -/
def leavingRule (id : String) : ActiveRule where
  descriptor :=
    { id, category := .style, severity := .warning, description := ""
      kinds := [.modifier, .closure, .property], phase := .exit
      check := some fun ctx => ⟨[ctx.remark "left" ""], none⟩ }
  severity := "warning"
  params := []

/-- The kinds of every rule from the last to the first. -/
def KindOrder.backwards : KindOrder where
  kinds r := r.descriptor.kinds.reverse
  perm r := r.descriptor.kinds.reverse_perm

theorem leavingRules_are_found_like_in_a_scan :
    let a := leavingRule "a-rule"
    let b := leavingRule "b-rule"
    let relisted := [a, b].map KindOrder.backwards.relist
    ([b, a].map ActiveRule.id).Nodup ∧
      (ActiveRules.ofList [b, a] []).forNode .closure .exit = [a, b] ∧
      (ActiveRules.ofList relisted []).forNode .closure .exit = relisted := by
  intro a b relisted
  have hids : ([b, a].map ActiveRule.id).Nodup := by decide
  obtain ⟨sorted, hperm, hascending, hscan⟩ := index_answers_like_a_scan [b, a] [] hids
  have hab : [a, b].Pairwise fun r q => r.id < q.id := List.pairwise_pair.mpr (by decide)
  have hsorted : sorted = [a, b] :=
    eq_of_perm_of_ascending hascending hab (hperm.trans (.swap a b []))
  subst hsorted
  obtain ⟨hfound, -, hany⟩ := hscan .closure .exit
  exact ⟨hids, hfound, hany KindOrder.backwards relisted (.swap _ _ [])⟩

end ComponentLint

-- The rules of a run stand in the order of their ids, and the index over them
-- answers like a plain search through all of them.
import ComponentLint.Rule.Active

namespace ComponentLint

/-! ## Sorting -/

/-- Of two items one may always stand before the other. -/
theorem isLE_total {α : Type} (cmp : α → α → Ordering) [Std.OrientedCmp cmp] (a b : α) :
    ((cmp a b).isLE || (cmp b a).isLE) = true := by
  rw [Bool.or_eq_true]
  by_cases h : (cmp a b).isLE = true
  · exact Or.inl h
  · right
    have : cmp b a = .lt := Std.OrientedCmp.lt_of_not_isLE h
    simp [this]

/-- Sorted items stand in the order they are sorted by. -/
theorem pairwise_mergeSort_cmp {α : Type} (cmp : α → α → Ordering) [Std.TransCmp cmp]
    (l : List α) :
    (l.mergeSort fun a b => (cmp a b).isLE).Pairwise fun a b => (cmp a b).isLE = true := by
  refine List.pairwise_mergeSort ?_ (isLE_total cmp) l
  intro a b c hab hbc
  exact Std.TransCmp.isLE_trans hab hbc

theorem compare_isLE_iff_le (a b : String) : (compare a b).isLE = true ↔ a ≤ b := by
  show (compareOfLessAndEq a b).isLE = true ↔ a ≤ b
  unfold compareOfLessAndEq
  by_cases hlt : a < b
  · simp only [hlt, if_true, Ordering.isLE_lt, true_iff]
    exact (String.le_total a b).resolve_right (String.not_le.mpr hlt)
  · by_cases heq : a = b
    · simp [heq]
    · simp only [hlt, heq, if_false, Ordering.isLE_gt, Bool.false_eq_true, false_iff]
      intro hle
      exact heq (String.le_antisymm hle (String.not_lt.mp hlt))

/-! ## The index -/

namespace RuleIndex

theorem get_add (r : ActiveRule) (key other : Phase × Kind) (index : RuleIndex) :
    (add r key index).get other = index.get other ++ if key = other then [r] else [] := by
  induction index with
  | nil =>
    by_cases h : key = other
    · simp [add, get, h]
    · have : (other == key) = false := by simpa using Ne.symm h
      simp [add, get, List.lookup_cons, h, this]
  | cons entry rest ih =>
    obtain ⟨k, rules⟩ := entry
    unfold get at ih
    by_cases hk : k = key
    · subst hk
      by_cases h : k = other
      · simp [add, get, h]
      · have : (other == k) = false := by simpa using Ne.symm h
        simp [add, get, List.lookup_cons, h, this]
    · by_cases h : k = other
      · subst h
        simp [add, get, hk, Ne.symm hk]
      · have : (other == k) = false := by simpa using Ne.symm h
        simp [add, get, List.lookup_cons, hk, this, ih]

/-- A rule listed under each of several kinds is found once under each of them. -/
theorem get_addKinds (r : ActiveRule) (phase : Phase) (kinds : List Kind) (hn : kinds.Nodup)
    (index : RuleIndex) (other : Phase) (kind : Kind) :
    (kinds.foldl (fun index k => add r (phase, k) index) index).get (other, kind) =
      index.get (other, kind) ++ if phase = other ∧ kind ∈ kinds then [r] else [] := by
  induction kinds generalizing index with
  | nil => simp
  | cons k kinds ih =>
    rw [List.nodup_cons] at hn
    rw [List.foldl_cons, ih hn.2, get_add, List.append_assoc]
    by_cases hp : phase = other
    · by_cases hk : k = kind
      · subst hk
        simp [hp, hn.1]
      · simp [hp, hk, Ne.symm hk]
    · simp [hp]

theorem get_addRule (index : RuleIndex) (r : ActiveRule) (phase : Phase) (kind : Kind) :
    (addRule index r).get (phase, kind) =
      index.get (phase, kind) ++ if r.looksAt kind phase then [r] else [] := by
  unfold addRule ActiveRule.looksAt
  by_cases hc : r.descriptor.check.isSome = true
  · simp only [hc, if_true]
    rw [get_addKinds r _ _ r.descriptor.kinds_nodup]
    simp
  · simp [hc]

theorem get_foldl_addRule (rules : List ActiveRule) (index : RuleIndex) (phase : Phase)
    (kind : Kind) :
    (rules.foldl addRule index).get (phase, kind) =
      index.get (phase, kind) ++ rules.filter fun r => r.looksAt kind phase := by
  induction rules generalizing index with
  | nil => simp
  | cons r rules ih =>
    rw [List.foldl_cons, ih, get_addRule, List.append_assoc]
    by_cases h : r.looksAt kind phase = true
    · simp [h]
    · simp [h]

end RuleIndex

/-! ## Rules of a run -/

namespace ActiveRules

/-- The index gives the rules that look at a kind of node in a phase, in the order of the run. -/
def Indexed (rs : ActiveRules) : Prop :=
  ∀ kind phase, rs.forNode kind phase = rs.rules.filter fun r => r.looksAt kind phase

theorem indexed_ofList (rules : List ActiveRule) (registered : List String) :
    (ofList rules registered).Indexed := by
  intro kind phase
  unfold forNode ofList RuleIndex.ofRules
  rw [RuleIndex.get_foldl_addRule]
  simp [RuleIndex.get]

theorem rules_ofList_perm (rules : List ActiveRule) (registered : List String) :
    (ofList rules registered).rules.Perm rules :=
  List.mergeSort_perm _ _

theorem rules_ofList_sorted (rules : List ActiveRule) (registered : List String) :
    (ofList rules registered).rules.Pairwise fun a b => a.id ≤ b.id := by
  refine (pairwise_mergeSort_cmp (compareOn ActiveRule.id) rules).imp ?_
  intro a b h
  exact (compare_isLE_iff_le _ _).mp h

/-- Where no two rules have one id, the order by ids is strict. -/
theorem rules_ofList_ascending {rules : List ActiveRule} (hids : (rules.map ActiveRule.id).Nodup)
    (registered : List String) :
    (ofList rules registered).rules.Pairwise fun a b => a.id < b.id := by
  have hnodup := ((rules_ofList_perm rules registered).map ActiveRule.id).nodup_iff.mpr hids
  refine ((rules_ofList_sorted rules registered).and (List.pairwise_map.mp hnodup)).imp ?_
  rintro a b ⟨hle, hne⟩
  refine Decidable.not_not.mp fun hlt => hne ?_
  exact String.le_antisymm hle (String.not_lt.mp hlt)

/-- A change that leaves the ids of rules as they are leaves their order, too. -/
theorem rules_ofList_map {f : ActiveRule → ActiveRule} (hf : ∀ r, (f r).id = r.id)
    (rules : List ActiveRule) (registered : List String) :
    (ofList (rules.map f) registered).rules = (ofList rules registered).rules.map f := by
  unfold ofList
  symm
  exact List.map_mergeSort fun a _ b _ => by rw [hf, hf]

end ActiveRules

end ComponentLint

-- Reports under suppressions. What stands in a report is decided finding by
-- finding, and findings of different rules or spans never tie in report
-- order, so a report is settled by which findings are in it.
import ComponentLint.Proofs.NodeRules
import ComponentLint.Proofs.RuleOrder
import ComponentLint.Report.Aggregate
import Mathlib.Data.List.Nodup

namespace ComponentLint

/-! ## Report order -/

namespace Finding

instance : Std.TransCmp order :=
  have := @Std.TransCmp.opposite Finding (compareOn rank) inferInstance
  inferInstanceAs <| Std.TransCmp <|
    compareLex (compareOn fun f => f.span.file) <|
      compareLex (compareOn fun f => f.span.startLine) <|
        compareLex (fun a b => compareOn rank b a) <| compareLex (compareOn ruleId) <|
          compareLex (compareOn fun f => f.span.startCol) <|
            compareLex (compareOn fun f => f.span.endLine) <|
              compareLex (compareOn fun f => f.span.endCol) (compareOn message)

/-- What tells findings apart: the rule and the span. -/
def key (f : Finding) : String × Span := (f.ruleId, f.span)

/-- Findings that tie in report order are of the same rule and span. -/
theorem key_eq_of_order_eq {a b : Finding} (h : a.order b = .eq) : a.key = b.key := by
  simp only [order, Ordering.then_eq_eq, Std.LawfulEqOrd.compare_eq_iff_eq] at h
  obtain ⟨hfile, hline, -, hrule, hcol, hendLine, hendCol, -⟩ := h
  have hspan : a.span = b.span := by
    change Span.mk a.span.file a.span.startLine a.span.startCol a.span.endLine a.span.endCol =
      b.span
    rw [hfile, hline, hcol, hendLine, hendCol]
  rw [key, key, hrule, hspan]

/-- Findings are put in order exactly when every severity has a rank. -/
theorem sort_eq_ok_iff {fs sorted : List Finding} :
    sort fs = .ok sorted ↔
      (∀ f ∈ fs, f.severity?.isSome) ∧ sorted = fs.mergeSort fun a b => (order a b).isLE := by
  unfold sort
  cases hfirst : firstUnranked? fs with
  | some u =>
    obtain ⟨f, hf, -⟩ := Option.map_eq_some_iff.mp hfirst
    have hnone := List.find?_some hf
    simp only [reduceCtorEq, false_iff]
    rintro ⟨hall, -⟩
    have hsome := hall f (List.mem_of_find?_eq_some hf)
    simp [Option.isNone_iff_eq_none.mp hnone] at hsome
  | none =>
    have hall := List.find?_eq_none.mp (Option.map_eq_none_iff.mp hfirst)
    simp only [Except.ok.injEq]
    constructor
    · rintro rfl
      refine ⟨fun f hf => ?_, rfl⟩
      rw [Option.isSome_iff_ne_none]
      exact fun hnone => hall f hf (by simp [hnone])
    · rintro ⟨-, rfl⟩
      rfl

/-- Two lists put in order show the same where they hold the same, if no two findings tie. -/
theorem filter_eq_of_sort {as bs as' bs' : List Finding} {p q : Finding → Bool}
    (has : sort as = .ok as') (hbs : sort bs = .ok bs') (h : as.filter p = bs.filter q)
    (hkeys : ((as.filter p).map key).Nodup) : as'.filter p = bs'.filter q := by
  obtain ⟨-, rfl⟩ := sort_eq_ok_iff.mp has
  obtain ⟨-, rfl⟩ := sort_eq_ok_iff.mp hbs
  have hasPerm := (List.mergeSort_perm as fun a b => (order a b).isLE).filter p
  have hbsPerm := (List.mergeSort_perm bs fun a b => (order a b).isLE).filter q
  rw [← h] at hbsPerm
  -- Both sides are the same findings in report order, and of these no two tie.
  refine List.Perm.eq_of_pairwise ?_ ((pairwise_mergeSort_cmp order as).filter p)
    ((pairwise_mergeSort_cmp order bs).filter q) (hasPerm.trans hbsPerm.symm)
  intro a b ha hb hab hba
  have heq : a.order b = .eq := Std.OrientedCmp.isLE_antisymm hab hba
  exact List.inj_on_of_nodup_map hkeys (hasPerm.mem_iff.mp ha) (hbsPerm.mem_iff.mp hb)
    (key_eq_of_order_eq heq)

end Finding

/-! ## First occurrences -/

namespace Report

theorem firstOccurrences_subset {seen : List (String × Span)} {fs : List Finding} :
    firstOccurrences seen fs ⊆ fs := by
  induction fs generalizing seen with
  | nil => simp [firstOccurrences]
  | cons f fs ih =>
    rw [firstOccurrences]
    split
    · exact fun g hg => List.mem_cons_of_mem _ (ih hg)
    · exact List.cons_subset_cons f ih

/-- The keys of first occurrences are new, and each stands there once. -/
theorem firstOccurrences_keys (seen : List (String × Span)) (fs : List Finding) :
    (∀ f ∈ firstOccurrences seen fs, f.key ∉ seen) ∧
      ((firstOccurrences seen fs).map Finding.key).Nodup := by
  induction fs generalizing seen with
  | nil => simp [firstOccurrences]
  | cons f fs ih =>
    rw [firstOccurrences]
    by_cases hseen : seen.contains (f.ruleId, f.span)
    · rw [if_pos hseen]
      exact ih seen
    · rw [if_neg hseen]
      obtain ⟨hnew, hnodup⟩ := ih ((f.ruleId, f.span) :: seen)
      refine ⟨?_, ?_⟩
      · intro g hg
        rcases List.mem_cons.mp hg with rfl | hg
        · simpa [Finding.key] using hseen
        · exact fun hmem => hnew g hg (List.mem_cons_of_mem _ hmem)
      · rw [List.map_cons, List.nodup_cons]
        refine ⟨?_, hnodup⟩
        intro hmem
        obtain ⟨g, hg, hkey⟩ := List.mem_map.mp hmem
        exact hnew g hg (hkey ▸ List.mem_cons_self)

/-! ## Notes on idle suppressions -/

/-- Whether what there is to say about an idle suppression can be written. -/
def tellable (s : Suppression) : Idle → Bool
  | .unknownRule => true
  | .noMatch => s.target.isShort

/-- What is said about an idle suppression when there is no limit to what can be written. -/
def idleWords (s : Suppression) : Idle → String
  | .unknownRule => s!"Suppression names unknown rule '{s.ruleId}' and silences nothing"
  | .noMatch => s!"Suppression of '{s.ruleId}' for line {s.target.digits} did not match any finding"

/-- The finding about an idle suppression in these words. -/
def idleNote (severity : String) (s : Suppression) (why : Idle) : Finding where
  ruleId := unusedSuppression
  severity := severity
  place := Place.point s.file s.line s.column
  message := idleWords s why
  suggestion := some (idleAdvice why)

theorem idleFinding_eq (severity : String) (s : Suppression) (why : Idle) :
    idleFinding severity s why = unlessLong (tellable s why) (idleNote severity s why) := by
  cases why with
  | unknownRule => rfl
  | noMatch =>
    unfold idleFinding idleMessage
    rw [Numeral.toText_eq, tellable]
    cases s.target.isShort <;> rfl

/-- The findings about idle suppressions in these words. -/
def idleNotes (rules : Option ActiveRules) (idle : List Suppression) : List Finding :=
  match idleSeverity? rules with
  | none => []
  | some severity => (reported rules idle).map fun e => idleNote severity e.1 e.2

/-- Whether all of them can be written. -/
def allTellable (rules : Option ActiveRules) (idle : List Suppression) : Bool :=
  (idleSeverity? rules).isNone || (reported rules idle).all fun e => tellable e.1 e.2

theorem idleFindings_eq (rules : Option ActiveRules) (idle : List Suppression) :
    idleFindings rules idle = unlessLong (allTellable rules idle) (idleNotes rules idle) := by
  unfold idleFindings allTellable idleNotes
  cases idleSeverity? rules with
  | none => rfl
  | some severity =>
    simp only [idleFinding_eq]
    exact mapM_unlessLong _ _ _

/-! ## A change of suppressions -/

/-- The suppressions that silence nothing. -/
def idleAmong (findings : List Finding) (suppressions : List Suppression) : List Suppression :=
  suppressions.filter fun s => !(firstOccurrences [] findings).any s.silences

/-- The findings that a report puts in order: the first occurrences that are not silenced, and one
about each suppression that silences nothing. -/
def listing (findings : List Finding) (suppressions : List Suppression)
    (rules : Option ActiveRules) : List Finding :=
  ((firstOccurrences [] findings).filter fun f => !suppressions.any (·.silences f))
    ++ idleNotes rules (idleAmong findings suppressions)

variable {findings : List Finding} {errors : List RuleError} {rules : Option ActiveRules}

theorem aggregate_eq (findings : List Finding) (suppressions : List Suppression)
    (errors : List RuleError) (rules : Option ActiveRules) :
    aggregate findings suppressions errors rules =
      if allTellable rules (idleAmong findings suppressions) then
        (Stop.refusing (Finding.sort (listing findings suppressions rules))).map (⟨·, errors⟩)
      else .error .longInteger := by
  unfold aggregate
  dsimp only
  rw [idleFindings_eq]
  change (Stop.writing (unlessLong (allTellable rules (idleAmong findings suppressions))
    (idleNotes rules (idleAmong findings suppressions))) >>= _) = _
  cases allTellable rules (idleAmong findings suppressions) with
  | false => rfl
  | true => rfl

theorem aggregate_eq_ok_iff {suppressions : List Suppression} {r : Report} :
    aggregate findings suppressions errors rules = .ok r ↔
      allTellable rules (idleAmong findings suppressions) = true ∧
        Finding.sort (listing findings suppressions rules) = .ok r.findings ∧
          r.errors = errors := by
  rw [aggregate_eq]
  cases allTellable rules (idleAmong findings suppressions) with
  | false => simp
  | true =>
    rw [if_pos rfl]
    obtain ⟨shown, failed⟩ := r
    cases Finding.sort (listing findings suppressions rules) <;>
      simp [Stop.refusing, Except.map, eq_comm]

theorem of_mem_idleNotes {idle : List Suppression} {f : Finding} (h : f ∈ idleNotes rules idle) :
    ∃ severity s why, idleSeverity? rules = some severity ∧ s ∈ idle ∧
      f = idleNote severity s why := by
  unfold idleNotes at h
  cases hseverity : idleSeverity? rules with
  | none => simp [hseverity] at h
  | some severity =>
    simp only [hseverity] at h
    obtain ⟨⟨s, why⟩, hreported, rfl⟩ := List.mem_map.mp h
    obtain ⟨s', hs', hwhy⟩ := List.mem_filterMap.mp hreported
    obtain ⟨why', -, hpair⟩ := Option.map_eq_some_iff.mp hwhy
    cases hpair
    exact ⟨severity, s, why, rfl, hs', rfl⟩

/-- Beside unused suppressions, what is listed are the first occurrences that are not silenced. -/
theorem filter_listing {suppressions : List Suppression} {p : Finding → Bool}
    (hp : ∀ f, p f → f.ruleId ≠ unusedSuppression) :
    (listing findings suppressions rules).filter p
      = (firstOccurrences [] findings).filter fun f =>
        p f && !suppressions.any (·.silences f) := by
  have hidle : ∀ idle, (idleNotes rules idle).filter p = [] := by
    intro idle
    rw [List.filter_eq_nil_iff]
    intro f hf hpf
    obtain ⟨severity, s, why, -, -, rfl⟩ := of_mem_idleNotes hf
    exact hp _ hpf rfl
  unfold listing
  rw [List.filter_append, List.filter_filter, hidle, List.append_nil]

/-- Two reports on the same findings show the same beside unused suppressions, in the same order,
when the suppressions of one silence what the other leaves out. -/
theorem filter_eq_of_aggregate {suppressions suppressions' : List Suppression}
    {p q : Finding → Bool} {r r' : Report}
    (h : aggregate findings suppressions errors rules = .ok r)
    (h' : aggregate findings suppressions' errors rules = .ok r')
    (hp : ∀ f, p f → f.ruleId ≠ unusedSuppression) (hq : ∀ f, q f → f.ruleId ≠ unusedSuppression)
    (hpq : ∀ f ∈ findings, (p f && !suppressions.any (·.silences f))
      = (q f && !suppressions'.any (·.silences f))) :
    r.findings.filter p = r'.findings.filter q := by
  obtain ⟨-, hsort, -⟩ := aggregate_eq_ok_iff.mp h
  obtain ⟨-, hsort', -⟩ := aggregate_eq_ok_iff.mp h'
  refine Finding.filter_eq_of_sort hsort hsort' ?_ ?_
  · rw [filter_listing hp, filter_listing hq]
    exact List.filter_congr fun f hf => hpq f (firstOccurrences_subset hf)
  · rw [filter_listing hp]
    exact (firstOccurrences_keys [] findings).2.sublist (List.filter_sublist.map _)

end Report

end ComponentLint

-- Several reports as one. The findings and the failures of all of them are
-- put in report order, where those that tie keep the order of their reports,
-- so it does not matter which reports are put together first.
import ComponentLint.Proofs.RunOutcomes
import ComponentLint.Proofs.StableSort

namespace ComponentLint

/-! ## Ranks -/

namespace Finding

/-- Whether a finding is at least as grave as a severity. -/
def reaches (level : Severity) (f : Finding) : Bool := f.severity?.any fun s => level.rank ≤ s.rank

theorem firstUnranked?_eq_none_iff {fs : List Finding} :
    firstUnranked? fs = none ↔ ∀ f ∈ fs, f.severity?.isSome := by
  unfold firstUnranked?
  rw [Option.map_eq_none_iff, List.find?_eq_none]
  simp [Option.isSome_iff_ne_none]

theorem firstUnranked?_append (fs gs : List Finding) :
    firstUnranked? (fs ++ gs) = (firstUnranked? fs).or (firstUnranked? gs) := by
  unfold firstUnranked?
  rw [List.find?_append, Option.map_or]

end Finding

namespace Report

theorem ofName_of_severity? {f : Finding} {s : Severity} (h : f.severity? = some s) :
    Severity.ofName f.severity = .ok s := by
  unfold Finding.severity? at h
  simp [Severity.ofName, h]

theorem anyReaches_of_ranked (level : Severity) {fs : List Finding}
    (h : ∀ f ∈ fs, f.severity?.isSome) :
    anyReaches level.rank fs = .ok (fs.any fun f => f.reaches level) := by
  induction fs with
  | nil => rfl
  | cons f fs ih =>
    obtain ⟨hf, hfs⟩ := List.forall_mem_cons.mp h
    obtain ⟨s, hs⟩ := Option.isSome_iff_exists.mp hf
    have hreaches : f.reaches level = decide (level.rank ≤ s.rank) := by simp [Finding.reaches, hs]
    rw [anyReaches, ofName_of_severity? hs, List.any_cons, hreaches]
    change (if level.rank ≤ s.rank then _ else _) = _
    by_cases hle : level.rank ≤ s.rank
    · rw [if_pos hle, decide_eq_true hle, Bool.true_or]
      rfl
    · rw [if_neg hle, decide_eq_false hle, Bool.false_or, ih hfs]

theorem hasAtLeast_of_ranked {r : Report} (h : r.Ranked) (level : Severity) :
    r.hasAtLeast level.name = .ok (r.findings.any fun f => f.reaches level) := by
  unfold hasAtLeast
  have hlevel : Severity.ofName level.name = .ok level := by
    simp [Severity.ofName, Severity.ofName?_name]
  rw [hlevel]
  exact anyReaches_of_ranked level h

theorem severities_of_ranked {r : Report} (h : r.Ranked) :
    r.severities = .ok (r.findings.filterMap Finding.severity?) := by
  obtain ⟨fs, errors⟩ := r
  unfold severities
  dsimp only [Ranked] at h ⊢
  induction fs with
  | nil => rfl
  | cons f fs ih =>
    obtain ⟨hf, hfs⟩ := List.forall_mem_cons.mp h
    obtain ⟨s, hs⟩ := Option.isSome_iff_exists.mp hf
    rw [List.filterMap_cons_some hs]
    exact mapM_cons_eq_ok_iff.mpr ⟨s, _, ofName_of_severity? hs, ih hfs, rfl⟩

/-- The counts of a report are a matter of which findings it has. -/
theorem counts_eq_of_perm {r r' : Report} (h : r.Ranked) (hperm : r.findings.Perm r'.findings) :
    r.counts = r'.counts := by
  have h' : r'.Ranked := fun f hf => h f (hperm.mem_iff.mpr hf)
  unfold counts
  rw [severities_of_ranked h, severities_of_ranked h']
  have hcount := fun level => (hperm.filterMap Finding.severity?).count_eq level
  change Except.ok _ = Except.ok _
  simp only [hcount]

/-! ## Merging -/

instance : Std.TransCmp errorOrder :=
  inferInstanceAs <| Std.TransCmp <|
    compareLex (compareLex (compareOn fun e : RuleError => e.place.span.file) <|
      compareLex (compareOn fun e => e.place.span.startLine) <|
        compareLex (compareOn fun e => e.place.span.startCol) <|
          compareLex (compareOn fun e => e.place.span.endLine)
            (compareOn fun e => e.place.span.endCol)) (compareOn fun e => e.ruleId)

theorem merge_eq (reports : List Report) :
    merge reports =
      match Finding.firstUnranked? (reports.flatMap Report.findings) with
      | some u => .error u
      | none => .ok
        ⟨(reports.flatMap Report.findings).mergeSort fun a b => (a.order b).isLE,
          (reports.flatMap Report.errors).mergeSort fun a b => (errorOrder a b).isLE⟩ := by
  unfold merge Finding.sort
  cases Finding.firstUnranked? (reports.flatMap Report.findings) with
  | none => rfl
  | some u => rfl

theorem merge_of_ranked {reports : List Report} (h : ∀ r ∈ reports, r.Ranked) :
    ∃ merged, merge reports = .ok merged ∧ merged.Ranked ∧
      StablySorted Finding.order (reports.flatMap Report.findings) merged.findings ∧
      StablySorted errorOrder (reports.flatMap Report.errors) merged.errors := by
  obtain ⟨merged, hmerged⟩ := exists_merge h
  rw [merge_eq] at hmerged
  split at hmerged
  · cases hmerged
  · rename_i hranked
    cases hmerged
    refine ⟨_, by rw [merge_eq, hranked], ?_, stablySorted_iff.mpr rfl, stablySorted_iff.mpr rfl⟩
    intro f hf
    exact Finding.firstUnranked?_eq_none_iff.mp hranked f ((List.mergeSort_perm _ _).mem_iff.mp hf)

/-- Reports that are merged in two groups first give the same report, and the same refusal when a
severity is unknown. -/
theorem merge_groups (as bs : List Report) :
    (merge as >>= fun a => merge bs >>= fun b => merge [a, b]) = merge (as ++ bs) := by
  rw [merge_eq as, merge_eq bs, merge_eq (as ++ bs), List.flatMap_append, List.flatMap_append,
    Finding.firstUnranked?_append]
  cases has : Finding.firstUnranked? (as.flatMap Report.findings) with
  | some u => rfl
  | none =>
    cases hbs : Finding.firstUnranked? (bs.flatMap Report.findings) with
    | some u => rfl
    | none =>
      have hsorted : ∀ fs : List Finding, Finding.firstUnranked? fs = none →
          Finding.firstUnranked? (fs.mergeSort fun a b => (a.order b).isLE) = none := by
        intro fs hfs
        rw [Finding.firstUnranked?_eq_none_iff] at hfs ⊢
        intro f hf
        exact hfs f ((List.mergeSort_perm _ _).mem_iff.mp hf)
      change merge [_, _] = _
      rw [merge_eq]
      simp only [List.flatMap_cons, List.flatMap_nil, List.append_nil,
        Finding.firstUnranked?_append, hsorted _ has, hsorted _ hbs, Option.or_self,
        mergeSort_append_mergeSort]

end Report

end ComponentLint

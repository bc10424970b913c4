-- Suppressions do not get in each other's way. One that is added takes away
-- the findings it matches, or is told of as unused; what is said about the
-- others stays. Those that are told of as unused can be deleted.
import ComponentLint.Proofs.ReportContents
import ComponentLint.Proofs.StableSort

namespace ComponentLint

namespace Report

variable (findings : List Finding) (rules : Option ActiveRules)

/-- A suppression that is reported as unused: no finding matches it, and reports about it are not
switched off. -/
def Unused (s : Suppression) : Prop := (∀ f ∈ findings, ¬ s.Matches f) ∧ Reportable rules s

instance (s : Suppression) : Decidable (Unused findings rules s) :=
  inferInstanceAs (Decidable (_ ∧ _))

theorem noted_iff_unused (suppressions : List Suppression) :
    Noted findings suppressions rules ↔
      ∀ s ∈ suppressions, Unused findings rules s → Tellable rules s := by
  simp only [Noted, Unused, and_imp]

/-! ## The parts of a report -/

theorem filter_unmatched (suppressions : List Suppression) :
    (unmatched findings suppressions).filter (fun s => Reportable rules s) =
      suppressions.filter fun s => Unused findings rules s := by
  unfold unmatched
  rw [List.filter_filter]
  refine List.filter_congr fun s _ => ?_
  rw [← Bool.decide_and, decide_eq_decide, and_comm, Unused]

theorem forall₂_notes (suppressions : List Suppression) :
    List.Forall₂ (NoteOn rules) (suppressions.filter fun s => Unused findings rules s)
      (idleNotes rules (unmatched findings suppressions)) := by
  rw [← filter_unmatched]
  exact forall₂_idleNotes rules _

theorem idleNotes_append (idle idle' : List Suppression) :
    idleNotes rules (idle ++ idle') = idleNotes rules idle ++ idleNotes rules idle' := by
  unfold idleNotes reported
  split
  · rfl
  · rw [List.filterMap_append, List.map_append]

theorem unmatched_append (suppressions suppressions' : List Suppression) :
    unmatched findings (suppressions ++ suppressions') =
      unmatched findings suppressions ++ unmatched findings suppressions' :=
  List.filter_append ..

/-- The notes of a report are those on each part of the suppressions. -/
theorem notes_append (suppressions suppressions' : List Suppression) :
    idleNotes rules (unmatched findings (suppressions ++ suppressions')) =
      idleNotes rules (unmatched findings suppressions) ++
        idleNotes rules (unmatched findings suppressions') := by
  rw [unmatched_append, idleNotes_append]

theorem kept_insert (before after : List Suppression) (s : Suppression) :
    kept findings (before ++ s :: after) =
      (kept findings (before ++ after)).filter fun f => ¬ s.Matches f := by
  unfold kept
  rw [List.filter_filter]
  refine List.filter_congr fun f _ => ?_
  rw [← Bool.decide_and, decide_eq_decide]
  simp only [List.mem_append, List.mem_cons]
  constructor
  · intro h
    exact ⟨h s (Or.inr (Or.inl rfl)), fun t ht => h t (ht.imp_right Or.inr)⟩
  · rintro ⟨hs, h⟩ t (ht | rfl | ht)
    · exact h t (Or.inl ht)
    · exact hs
    · exact h t (Or.inr ht)

theorem kept_perm_firsts (suppressions : List Suppression) :
    (kept findings suppressions).Perm
      ((firsts findings).filter fun f => ∀ s ∈ suppressions, ¬ s.Matches f) :=
  (firstOccurrences_perm findings).filter _

variable {findings rules} {suppressions : List Suppression} {errors : List RuleError} {r : Report}

theorem findings_of_aggregate (h : aggregate findings suppressions errors rules = .ok r) :
    r.findings = (kept findings suppressions ++
      idleNotes rules (unmatched findings suppressions)).mergeSort
        fun a b => (a.order b).isLE := by
  obtain ⟨-, hsort, -⟩ := aggregate_eq_ok_iff.mp h
  obtain ⟨-, hsorted⟩ := Finding.sort_eq_ok_iff.mp hsort
  rw [hsorted, listing_eq]

theorem findings_perm_of_aggregate (h : aggregate findings suppressions errors rules = .ok r) :
    r.findings.Perm
      (kept findings suppressions ++ idleNotes rules (unmatched findings suppressions)) := by
  rw [findings_of_aggregate h]
  exact List.mergeSort_perm _ _

/-! ## Deleting what is unused -/

theorem kept_filter_unused :
    kept findings (suppressions.filter fun s => ¬ Unused findings rules s) =
      kept findings suppressions := by
  unfold kept
  refine List.filter_congr fun f hf => ?_
  rw [decide_eq_decide]
  constructor
  · intro h s hs hmatches
    -- A suppression with a match is used, so it is still there.
    have hused : ¬ Unused findings rules s :=
      fun hunused => hunused.1 f (firstOccurrences_subset hf) hmatches
    exact h s (List.mem_filter.mpr ⟨hs, decide_eq_true hused⟩) hmatches
  · intro h s hs
    exact h s (List.mem_filter.mp hs).1

theorem notes_filter_unused :
    idleNotes rules
      (unmatched findings (suppressions.filter fun s => ¬ Unused findings rules s)) = [] := by
  have hnotes := forall₂_notes findings rules
    (suppressions.filter fun s => ¬ Unused findings rules s)
  have hnone : (suppressions.filter fun s => ¬ Unused findings rules s).filter
      (fun s => Unused findings rules s) = [] := by
    rw [List.filter_filter, List.filter_eq_nil_iff]
    simp
  rw [hnone] at hnotes
  exact List.forall₂_nil_left_iff.mp hnotes

theorem exists_aggregate_filter_unused
    (h : aggregate findings suppressions errors rules = .ok r) :
    ∃ r', aggregate findings (suppressions.filter fun s => ¬ Unused findings rules s) errors rules =
        .ok r' ∧ r'.errors = r.errors ∧
      r'.findings = (kept findings suppressions).mergeSort fun a b => (a.order b).isLE := by
  obtain ⟨-, hsort, herrors⟩ := aggregate_eq_ok_iff.mp h
  obtain ⟨hranked, -⟩ := Finding.sort_eq_ok_iff.mp hsort
  rw [listing_eq] at hranked
  have hlisting : listing findings (suppressions.filter fun s => ¬ Unused findings rules s) rules =
      kept findings suppressions := by
    rw [listing_eq, kept_filter_unused, notes_filter_unused, List.append_nil]
  -- No suppression that is left is told of, so there is nothing to write.
  have hnoted : Noted findings (suppressions.filter fun s => ¬ Unused findings rules s) rules :=
    (noted_iff_unused findings rules _).mpr fun s hs hunused =>
      absurd hunused (of_decide_eq_true (List.mem_filter.mp hs).2)
  refine ⟨⟨_, errors⟩, aggregate_eq_ok_iff.mpr ⟨(noted_iff _ _ _).mp hnoted, ?_, rfl⟩,
    herrors.symm, rfl⟩
  rw [hlisting]
  exact Finding.sort_eq_ok_iff.mpr
    ⟨fun f hf => hranked f (List.mem_append_left _ hf), rfl⟩

/-- Where no finding is of the rule about unused suppressions, this rule tells the notes of a report
from the rest. -/
theorem filter_findings_of_aggregate (h : aggregate findings suppressions errors rules = .ok r)
    (hrule : ∀ f ∈ findings, f.ruleId ≠ unusedSuppression) :
    r.findings.filter (fun f => f.ruleId ≠ unusedSuppression) =
      (kept findings suppressions).mergeSort fun a b => (a.order b).isLE := by
  have hkept : (kept findings suppressions).filter (fun f => f.ruleId ≠ unusedSuppression) =
      kept findings suppressions := by
    rw [List.filter_eq_self]
    intro f hf
    exact decide_eq_true (hrule f (firstOccurrences_subset (List.mem_filter.mp hf).1))
  have hnotes : ∀ idle, (idleNotes rules idle).filter
      (fun f => f.ruleId ≠ unusedSuppression) = [] := by
    intro idle
    rw [List.filter_eq_nil_iff]
    intro f hf
    obtain ⟨severity, s, why, -, -, rfl⟩ := of_mem_idleNotes hf
    simp [idleNote]
  rw [findings_of_aggregate h, filter_mergeSort, List.filter_append, hkept, hnotes,
    List.append_nil]

/-! ## The law -/

/-- A suppression that is added to others takes away what it matches and nothing else. It is told of
when it is unused, and there is a report as long as what is told can be written. The findings that
are kept otherwise and the notes on the other suppressions are the same with it and without it.
Deleting all suppressions that are told of deletes the notes about them and leaves the rest of the
report in its order. -/
theorem suppressions_act_on_their_own (findings : List Finding) (before after : List Suppression)
    (s : Suppression) (errors : List RuleError) (rules : Option ActiveRules) :
    ((∀ f ∈ findings, f.severity?.isSome) →
      (∀ rs ∈ rules, ∀ u ∈ rs.get? unusedSuppression, (Severity.ofName? u.severity).isSome) →
      ∀ suppressions, (∃ r, aggregate findings suppressions errors rules = .ok r) ↔
        ∀ t ∈ suppressions, Unused findings rules t → Tellable rules t) ∧
    (∀ r r', aggregate findings (before ++ after) errors rules = .ok r →
      aggregate findings (before ++ s :: after) errors rules = .ok r' →
      ∃ others notesBefore notesAfter own,
        others.Perm ((firsts findings).filter fun f => ∀ t ∈ before ++ after, ¬ t.Matches f) ∧
        List.Forall₂ (NoteOn rules) (before.filter fun t => Unused findings rules t) notesBefore ∧
        List.Forall₂ (NoteOn rules) (after.filter fun t => Unused findings rules t) notesAfter ∧
        List.Forall₂ (NoteOn rules) ([s].filter fun t => Unused findings rules t) own ∧
        r.findings.Perm (others ++ (notesBefore ++ notesAfter)) ∧
        r'.findings.Perm
          (others.filter (fun f => ¬ s.Matches f) ++ (notesBefore ++ (own ++ notesAfter)))) ∧
    ∀ suppressions r, aggregate findings suppressions errors rules = .ok r →
      ∃ r' notes,
        aggregate findings (suppressions.filter fun t => ¬ Unused findings rules t) errors rules =
          .ok r' ∧
        r'.errors = r.errors ∧
        List.Forall₂ (NoteOn rules) (suppressions.filter fun t => Unused findings rules t) notes ∧
        r.findings.Perm (r'.findings ++ notes) ∧
        r'.findings.Sublist r.findings ∧
        ((∀ f ∈ findings, f.ruleId ≠ unusedSuppression) →
          r'.findings = r.findings.filter fun f => f.ruleId ≠ unusedSuppression) := by
  refine ⟨fun hfindings hrules suppressions => ?_, fun r r' hr hr' => ?_,
    fun suppressions r hr => ?_⟩
  · rw [← noted_iff_unused]
    refine ⟨fun ⟨r, hr⟩ => noted_of_aggregate hr, fun hnoted => ?_⟩
    obtain ⟨r, hr, -⟩ :=
      exists_aggregate findings suppressions rules errors hfindings hrules hnoted
    exact ⟨r, hr⟩
  · refine ⟨_, _, _, _, kept_perm_firsts findings (before ++ after), forall₂_notes findings rules _,
      forall₂_notes findings rules _, forall₂_notes findings rules _, ?_, ?_⟩
    · have hperm := findings_perm_of_aggregate hr
      rwa [notes_append] at hperm
    · have hperm := findings_perm_of_aggregate hr'
      rwa [kept_insert, notes_append, ← List.singleton_append, notes_append] at hperm
  · obtain ⟨r', hr', herrors, hsorted⟩ := exists_aggregate_filter_unused hr
    refine ⟨r', _, hr', herrors, forall₂_notes findings rules suppressions, ?_, ?_, fun hrule => ?_⟩
    · refine (findings_perm_of_aggregate hr).trans (List.Perm.append_right _ ?_)
      rw [hsorted]
      exact (List.mergeSort_perm _ _).symm
    · rw [hsorted, findings_of_aggregate hr]
      exact mergeSort_sublist_append _ _
    · rw [hsorted, filter_findings_of_aggregate hr hrule]

/-- The first of the suppressions on the line, which is used. -/
def usedSuppression : Suppression := ⟨"A", "stable-identity", .int 4, .int 4, .int 20⟩

theorem lineSuppressions_act_on_their_own :
    ∃ r r', aggregate repeatedFindings (lineSuppressions.drop 1) [] (some idleRules) = .ok r ∧
      aggregate repeatedFindings lineSuppressions [] (some idleRules) = .ok r' ∧
      r.findings.length = r'.findings.length + 1 := by
  obtain ⟨hexists, hinsert, -⟩ := suppressions_act_on_their_own repeatedFindings []
    (lineSuppressions.drop 1) usedSuppression [] (some idleRules)
  have hexists := hexists (by decide) (by decide)
  have hnoted := (noted_iff_unused _ _ _).mp
    (noted_lineSuppressions repeatedFindings (some idleRules))
  obtain ⟨r, hr⟩ := (hexists (lineSuppressions.drop 1)).mpr
    fun t ht => hnoted t (List.mem_of_mem_drop ht)
  obtain ⟨r', hr'⟩ := (hexists lineSuppressions).mpr hnoted
  obtain ⟨others, notesBefore, notesAfter, own, hothers, -, -, hown, hperm, hperm'⟩ :=
    hinsert r r' hr hr'
  have hown : own.length = 0 := hown.length_eq.symm
  have hkept : others.length = 2 := hothers.length_eq
  have hleft : (others.filter fun f => ¬ usedSuppression.Matches f).length = 1 :=
    (hothers.filter _).length_eq
  have hlength := hperm.length_eq
  have hlength' := hperm'.length_eq
  simp only [List.length_append] at hlength hlength'
  exact ⟨r, r', hr, hr', by omega⟩

/-- A suppression whose note cannot be written takes the report away that there is without it. -/
theorem farSuppression_takes_the_report_away :
    (∃ r, aggregate [] [] [] none = .ok r) ∧ Unused [] none farSuppression ∧
      ¬ ∃ r, aggregate [] [farSuppression] [] none = .ok r := by
  have hunused : Unused [] none farSuppression := by decide
  obtain ⟨r, hr, -⟩ := exists_aggregate [] [] none [] (by simp) (by simp) (by simp [Noted])
  refine ⟨⟨r, hr⟩, hunused, ?_⟩
  rintro ⟨r', hr'⟩
  have hnoted := (noted_iff_unused _ _ _).mp (noted_of_aggregate hr')
  exact not_tellable_farSuppression (hnoted farSuppression (by simp) hunused)

end Report

end ComponentLint

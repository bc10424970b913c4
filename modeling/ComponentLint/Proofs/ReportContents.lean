-- What a report holds. Of the findings with one rule and span the first one
-- stands in it, unless it is silenced; each suppression that silences nothing
-- is told of once, unless its rule is switched off; nothing else is there.
import ComponentLint.Proofs.ReportOrder
import Mathlib.Data.List.Dedup

namespace ComponentLint

/-! ## Matches -/

/-- A suppression matches a finding that starts on its target line, of its rule or of any. -/
def Suppression.Matches (s : Suppression) (f : Finding) : Prop :=
  f.span.file = s.file ∧ f.span.startLine = s.target.value ∧
    (s.ruleId = Suppression.allRules ∨ s.ruleId = f.ruleId)

instance (s : Suppression) (f : Finding) : Decidable (s.Matches f) :=
  inferInstanceAs (Decidable (_ ∧ _ ∧ _))

theorem Suppression.silences_iff {s : Suppression} {f : Finding} :
    s.silences f = true ↔ s.Matches f := by
  simp [silences, covers, Matches, and_assoc]

/-- Whether a suppression matches a finding is a matter of the rule and the span. -/
theorem Suppression.Matches.of_key_eq {s : Suppression} {f g : Finding} (h : s.Matches f)
    (hkey : f.key = g.key) : s.Matches g := by
  obtain ⟨hrule, hspan⟩ := Prod.mk.inj hkey
  unfold Matches at h ⊢
  rwa [← hrule, ← hspan]

namespace Report

/-! ## The first finding of each rule and span -/

theorem firstOccurrences_cons (seen : List (String × Span)) (f : Finding) (fs : List Finding) :
    firstOccurrences seen (f :: fs) =
      if f.key ∈ seen then firstOccurrences seen fs
      else f :: firstOccurrences (f.key :: seen) fs := by
  rw [firstOccurrences]
  by_cases hseen : f.key ∈ seen
  · rw [if_pos hseen]
    exact if_pos (List.contains_iff_mem.mpr hseen)
  · rw [if_neg hseen]
    exact if_neg (mt List.contains_iff_mem.mp hseen)

theorem mem_firstOccurrences_iff {seen : List (String × Span)} {fs : List Finding} {f : Finding} :
    f ∈ firstOccurrences seen fs ↔
      f.key ∉ seen ∧ fs.find? (fun g => g.key == f.key) = some f := by
  induction fs generalizing seen with
  | nil => simp [firstOccurrences]
  | cons g fs ih =>
    rw [firstOccurrences_cons, List.find?_cons]
    by_cases hkey : g.key = f.key
    · -- The head has the key of `f`: it is `f` itself, or `f` is not the first.
      by_cases hseen : f.key ∈ seen
      · simp [hkey, hseen, ih]
      · simp [hkey, hseen, ih, eq_comm]
    · have hne : (g.key == f.key) = false := beq_false_of_ne hkey
      have hfg : f ≠ g := fun h => hkey (h ▸ rfl)
      by_cases hseen : g.key ∈ seen
      · simp [hne, hseen, ih]
      · simp [hne, hseen, ih, hfg, Ne.symm hkey]

theorem key_of_find? {findings : List Finding} {k : String × Span} {f : Finding}
    (h : findings.find? (fun g => g.key == k) = some f) : f.key = k := by
  simpa using List.find?_some h

/-- For each rule and span that occurs, the first finding with them. -/
def firsts (findings : List Finding) : List Finding :=
  (findings.map Finding.key).dedup.filterMap fun k => findings.find? fun f => f.key == k

theorem mem_firsts_iff {findings : List Finding} {f : Finding} :
    f ∈ firsts findings ↔ findings.find? (fun g => g.key == f.key) = some f := by
  unfold firsts
  rw [List.mem_filterMap]
  constructor
  · rintro ⟨k, -, hfind⟩
    rwa [key_of_find? hfind]
  · intro hfind
    refine ⟨f.key, ?_, hfind⟩
    exact List.mem_dedup.mpr (List.mem_map_of_mem (List.mem_of_find?_eq_some hfind))

theorem nodup_firsts (findings : List Finding) : (firsts findings).Nodup := by
  refine List.Nodup.filterMap ?_ (List.nodup_dedup _)
  intro k k' f hk hk'
  rw [← key_of_find? hk, ← key_of_find? hk']

theorem firstOccurrences_perm (findings : List Finding) :
    (firstOccurrences [] findings).Perm (firsts findings) := by
  have hnodup : (firstOccurrences [] findings).Nodup :=
    List.Nodup.of_map _ (firstOccurrences_keys [] findings).2
  rw [List.perm_ext_iff_of_nodup hnodup (nodup_firsts findings)]
  intro f
  rw [mem_firstOccurrences_iff, mem_firsts_iff]
  simp

/-- A suppression that matches a finding matches the first one with that rule and span. -/
theorem exists_mem_firstOccurrences_iff (findings : List Finding) (s : Suppression) :
    (∃ f ∈ firstOccurrences [] findings, s.Matches f) ↔ ∃ f ∈ findings, s.Matches f := by
  constructor
  · rintro ⟨f, hf, hmatches⟩
    exact ⟨f, firstOccurrences_subset hf, hmatches⟩
  · rintro ⟨f, hf, hmatches⟩
    cases hfirst : findings.find? (fun g => g.key == f.key) with
    | none => exact absurd (List.find?_eq_none.mp hfirst f hf) (by simp)
    | some g =>
      have hkey : g.key = f.key := key_of_find? hfirst
      refine ⟨g, mem_firstOccurrences_iff.mpr ⟨by simp, ?_⟩, hmatches.of_key_eq hkey.symm⟩
      rw [hkey, hfirst]

/-! ## Notes on idle suppressions -/

/-- An idle suppression is reported unless the rules of the run are known and say otherwise: reports
of idle suppressions are switched off, or the rule it names is. -/
def Reportable (rules : Option ActiveRules) (s : Suppression) : Prop :=
  ∀ rs ∈ rules, rs.has unusedSuppression ∧
    (s.ruleId = Suppression.allRules ∨ rs.has s.ruleId ∨ ¬ rs.isRegistered s.ruleId)

instance (rules : Option ActiveRules) (s : Suppression) : Decidable (Reportable rules s) :=
  inferInstanceAs (Decidable (∀ rs ∈ rules, _))

/-- A finding about an idle suppression: of the rule for these, where the suppression was written,
and as severe as the rule is in the run. -/
structure NoteOn (rules : Option ActiveRules) (s : Suppression) (f : Finding) : Prop where
  rule : f.ruleId = unusedSuppression
  place : f.place = Place.point s.file s.line s.column
  severity : idleSeverity? rules = some f.severity

theorem reportable_iff {rules : Option ActiveRules} {s : Suppression} :
    Reportable rules s ↔ (idleSeverity? rules).isSome ∧ (idle? rules s).isSome := by
  unfold Reportable idleSeverity? idle?
  cases rules with
  | none => simp
  | some rs =>
    simp only [Option.mem_def, Option.some.injEq, forall_eq', Option.isSome_map, ActiveRules.has]
    refine and_congr_right fun _ => ?_
    by_cases hnamed : s.ruleId = Suppression.allRules ∨ (rs.get? s.ruleId).isSome
    · simp [hnamed, ← or_assoc]
    · by_cases hregistered : rs.isRegistered s.ruleId
      · simp [hnamed, hregistered]
      · simp [hnamed, hregistered]

/-- What a note on an idle suppression tells can be written: the target line, unless the note is
about a rule that does not exist. -/
def Tellable (rules : Option ActiveRules) (s : Suppression) : Prop :=
  s.target.isShort ∨ ∃ rs ∈ rules, s.ruleId ≠ Suppression.allRules ∧ ¬ rs.has s.ruleId

instance (rules : Option ActiveRules) (s : Suppression) : Decidable (Tellable rules s) :=
  inferInstanceAs (Decidable (_ ∨ ∃ rs ∈ rules, _))

theorem tellable_iff {rules : Option ActiveRules} {s : Suppression} {why : Idle}
    (hwhy : idle? rules s = some why) : tellable s why = true ↔ Tellable rules s := by
  unfold idle? at hwhy
  unfold Tellable
  cases rules with
  | none =>
    cases hwhy
    simp [tellable]
  | some rs =>
    dsimp only at hwhy
    split at hwhy
    case isTrue hnamed =>
      cases hwhy
      have hknown : ¬ (s.ruleId ≠ Suppression.allRules ∧ ¬ rs.has s.ruleId) := by tauto
      simp only [tellable, Option.mem_def, Option.some.injEq, exists_eq_left', hknown, or_false]
    case isFalse hnamed =>
      split at hwhy
      case isTrue => cases hwhy
      case isFalse =>
        cases hwhy
        have hunknown : s.ruleId ≠ Suppression.allRules ∧ ¬ rs.has s.ruleId := by tauto
        simp [tellable, hunknown]

theorem allTellable_iff {rules : Option ActiveRules} {idle : List Suppression} :
    allTellable rules idle = true ↔ ∀ s ∈ idle, Reportable rules s → Tellable rules s := by
  have hpairs : ∀ s why, (s, why) ∈ reported rules idle ↔ s ∈ idle ∧ idle? rules s = some why := by
    intro s why
    simp [reported, List.mem_filterMap]
  simp only [allTellable, Bool.or_eq_true, List.all_eq_true, reportable_iff]
  constructor
  · rintro htold s hs ⟨hseverity, hwhy⟩
    obtain ⟨why, hwhy⟩ := Option.isSome_iff_exists.mp hwhy
    rcases htold with hnone | hall
    · simp [Option.isNone_iff_eq_none.mp hnone] at hseverity
    · exact (tellable_iff hwhy).mp (hall (s, why) ((hpairs s why).mpr ⟨hs, hwhy⟩))
  · intro htold
    by_cases hseverity : (idleSeverity? rules).isSome
    · refine .inr fun e he => ?_
      obtain ⟨hs, hwhy⟩ := (hpairs e.1 e.2).mp he
      exact (tellable_iff hwhy).mpr (htold e.1 hs ⟨hseverity, by simp [hwhy]⟩)
    · exact .inl (by simpa using hseverity)

/-- The findings about idle suppressions: one each for those that are reported, in their order. -/
theorem forall₂_idleNotes (rules : Option ActiveRules) (idle : List Suppression) :
    List.Forall₂ (NoteOn rules) (idle.filter fun s => Reportable rules s)
      (idleNotes rules idle) := by
  unfold idleNotes
  cases hseverity : idleSeverity? rules with
  | none =>
    have hnone : idle.filter (fun s => Reportable rules s) = [] := by
      rw [List.filter_eq_nil_iff]
      intro s _
      simp [reportable_iff, hseverity]
    rw [hnone]
    exact .nil
  | some severity =>
    dsimp only
    induction idle with
    | nil => exact .nil
    | cons s idle ih =>
      rw [List.filter_cons, reported, List.filterMap_cons]
      cases hwhy : idle? rules s with
      | none => simpa [reportable_iff, hseverity, hwhy, reported] using ih
      | some why =>
        have hreported : Reportable rules s := by simp [reportable_iff, hseverity, hwhy]
        simp only [hreported, decide_true, if_true]
        exact .cons ⟨rfl, rfl, hseverity⟩ ih

/-! ## What is put in order -/

variable (findings : List Finding) (suppressions : List Suppression) (rules : Option ActiveRules)

/-- The first findings that no suppression matches. -/
def kept : List Finding :=
  (firstOccurrences [] findings).filter fun f => ∀ s ∈ suppressions, ¬ s.Matches f

/-- The suppressions that match no finding. -/
def unmatched : List Suppression := suppressions.filter fun s => ∀ f ∈ findings, ¬ s.Matches f

theorem idleAmong_eq : idleAmong findings suppressions = unmatched findings suppressions := by
  unfold idleAmong unmatched
  congr 1
  funext s
  have := not_congr (exists_mem_firstOccurrences_iff findings s)
  rw [Bool.eq_iff_iff, decide_eq_true_iff]
  push Not at this
  simpa [← Suppression.silences_iff] using this

theorem listing_eq :
    listing findings suppressions rules =
      kept findings suppressions ++ idleNotes rules (unmatched findings suppressions) := by
  have hkept : ∀ f, (!suppressions.any (·.silences f)) =
      decide (∀ s ∈ suppressions, ¬ s.Matches f) := by
    intro f
    rw [Bool.eq_iff_iff]
    simp [← Suppression.silences_iff]
  simp only [listing, kept, hkept, idleAmong_eq]

/-- All severities in the listing are known when those of the findings and of the rules are. -/
theorem severity_of_mem_listing (hfindings : ∀ f ∈ findings, f.severity?.isSome)
    (hrules : ∀ rs ∈ rules, ∀ u ∈ rs.get? unusedSuppression, (Severity.ofName? u.severity).isSome) :
    ∀ f ∈ listing findings suppressions rules, f.severity?.isSome := by
  have hidle : ∀ severity, idleSeverity? rules = some severity →
      (Severity.ofName? severity).isSome := by
    intro severity hseverity
    cases rules with
    | none =>
      simp only [idleSeverity?, Option.some.injEq] at hseverity
      rw [← hseverity]
      decide
    | some rs =>
      obtain ⟨u, hu, rfl⟩ := Option.map_eq_some_iff.mp hseverity
      exact hrules rs rfl u hu
  intro f hf
  rw [listing_eq] at hf
  rcases List.mem_append.mp hf with hf | hf
  · exact hfindings f (firstOccurrences_subset (List.mem_filter.mp hf).1)
  · obtain ⟨severity, s, why, hseverity, -, rfl⟩ := of_mem_idleNotes hf
    exact hidle severity hseverity

/-- The notes on the suppressions that match nothing can be written. -/
def Noted : Prop :=
  ∀ s ∈ suppressions, (∀ f ∈ findings, ¬ s.Matches f) → Reportable rules s → Tellable rules s

instance : Decidable (Noted findings suppressions rules) :=
  inferInstanceAs (Decidable (∀ s ∈ suppressions, _ → _ → _))

theorem noted_iff : Noted findings suppressions rules ↔
    allTellable rules (idleAmong findings suppressions) = true := by
  rw [allTellable_iff, idleAmong_eq]
  simp [Noted, unmatched]

/-- Findings and rules whose severities are known give a report, as far as the notes can be
written. -/
theorem exists_aggregate (errors : List RuleError)
    (hfindings : ∀ f ∈ findings, f.severity?.isSome)
    (hrules : ∀ rs ∈ rules, ∀ u ∈ rs.get? unusedSuppression, (Severity.ofName? u.severity).isSome)
    (hnoted : Noted findings suppressions rules) :
    ∃ r, aggregate findings suppressions errors rules = .ok r ∧ r.errors = errors := by
  have hsort := Finding.sort_eq_ok_iff.mpr
    ⟨severity_of_mem_listing findings suppressions rules hfindings hrules, rfl⟩
  have htellable := (noted_iff findings suppressions rules).mp hnoted
  exact ⟨⟨_, _⟩, aggregate_eq_ok_iff.mpr ⟨htellable, hsort, rfl⟩, rfl⟩

theorem aggregate_of_not_noted (errors : List RuleError)
    (hnoted : ¬ Noted findings suppressions rules) :
    aggregate findings suppressions errors rules = .error .longInteger := by
  rw [aggregate_eq, if_neg (mt (noted_iff findings suppressions rules).mpr hnoted)]

theorem noted_of_aggregate {findings : List Finding} {suppressions : List Suppression}
    {rules : Option ActiveRules} {errors : List RuleError} {r : Report}
    (h : aggregate findings suppressions errors rules = .ok r) :
    Noted findings suppressions rules :=
  (noted_iff findings suppressions rules).mpr (aggregate_eq_ok_iff.mp h).1

/-! ## The report as a whole -/

/-- What a report on findings under suppressions has to be. -/
structure Accounts (errors : List RuleError) (r : Report) : Prop where
  /-- Its findings stand in report order. -/
  sorted : r.findings.Pairwise fun a b => (a.order b).isLE
  /-- They are the first of each rule and span that no suppression matches, and one note on each
  suppression that is reported because it matches nothing. -/
  contents : ∃ notes,
    List.Forall₂ (NoteOn rules)
      (suppressions.filter fun s => (∀ f ∈ findings, ¬ s.Matches f) ∧ Reportable rules s) notes ∧
    r.findings.Perm
      (((firsts findings).filter fun f => ∀ s ∈ suppressions, ¬ s.Matches f) ++ notes)
  errors_eq : r.errors = errors

/-- Every report is what it has to be. When all severities are known there is one, unless a note
needs a number that is too long to be written: then there is none, whatever the severities are. -/
theorem report_accounts_for_findings_and_suppressions (errors : List RuleError)
    (hfindings : ∀ f ∈ findings, f.severity?.isSome) :
    ((∀ rs ∈ rules, ∀ u ∈ rs.get? unusedSuppression, (Severity.ofName? u.severity).isSome) →
      ((∃ r, aggregate findings suppressions errors rules = .ok r) ↔
        Noted findings suppressions rules)) ∧
    (¬ Noted findings suppressions rules →
      aggregate findings suppressions errors rules = .error .longInteger) ∧
    ∀ r, aggregate findings suppressions errors rules = .ok r →
      Accounts findings suppressions rules errors r := by
  refine ⟨fun hrules => ⟨fun ⟨r, hr⟩ => noted_of_aggregate hr, fun hnoted => ?_⟩,
    aggregate_of_not_noted findings suppressions rules errors, fun r hr => ?_⟩
  · obtain ⟨r, hr, -⟩ :=
      exists_aggregate findings suppressions rules errors hfindings hrules hnoted
    exact ⟨r, hr⟩
  · obtain ⟨-, hsort, herrors⟩ := aggregate_eq_ok_iff.mp hr
    obtain ⟨-, hsorted⟩ := Finding.sort_eq_ok_iff.mp hsort
    have hreported : (suppressions.filter fun s =>
          (∀ f ∈ findings, ¬ s.Matches f) ∧ Reportable rules s) =
        (unmatched findings suppressions).filter fun s => Reportable rules s := by
      simp only [unmatched, List.filter_filter, Bool.decide_and, Bool.and_comm]
    refine ⟨?_, ⟨_, hreported ▸ forall₂_idleNotes rules _, ?_⟩, herrors⟩
    · rw [hsorted]
      exact pairwise_mergeSort_cmp Finding.order _
    · rw [hsorted]
      refine (List.mergeSort_perm _ _).trans ?_
      rw [listing_eq]
      exact ((firstOccurrences_perm findings).filter _).append_right _

/-- Two findings of a rule at one span, and one of another rule. -/
def repeatedFindings : List Finding :=
  [⟨"nesting-depth", "info", .ofSpan ⟨"A", 3, 1, 9, 2⟩, "too deep", none⟩,
   ⟨"stable-identity", "warning", .ofSpan ⟨"A", 4, 5, 4, 9⟩, "no identity", none⟩,
   ⟨"nesting-depth", "error", .ofSpan ⟨"A", 3, 1, 9, 2⟩, "far too deep", none⟩]

/-- Suppressions of both rules on the line of the second one. -/
def lineSuppressions : List Suppression :=
  ["stable-identity", "nesting-depth"].map fun id => ⟨"A", id, .int 4, .int 4, .int 20⟩

theorem noted_lineSuppressions (findings : List Finding) (rules : Option ActiveRules) :
    Noted findings lineSuppressions rules := by
  refine List.forall_mem_map.mpr fun id _ _ _ => ?_
  exact .inl (Number.isShort_of_natAbs_lt (by decide))

/-- A run of the rule about idle suppressions alone; `stable-identity` is switched off. -/
def idleRules : ActiveRules where
  rules := [⟨{ id := unusedSuppression, category := .style, severity := .info, description := ""
               kinds_nodup := List.nodup_nil }, "info", []⟩]
  registered := ["stable-identity", unusedSuppression]
  index := []

theorem report_accounts_for_repeatedFindings :
    ∃ r, aggregate repeatedFindings lineSuppressions [] (some idleRules) = .ok r ∧
      Accounts repeatedFindings lineSuppressions (some idleRules) [] r := by
  obtain ⟨hexists, -, haccounts⟩ := report_accounts_for_findings_and_suppressions repeatedFindings
    lineSuppressions (some idleRules) [] (by decide)
  obtain ⟨r, hr⟩ := (hexists (by decide)).mpr (noted_lineSuppressions _ _)
  exact ⟨r, hr, haccounts r hr⟩

/-- A suppression of all rules for a line too far down to be written. -/
def farSuppression : Suppression where
  file := "A"
  ruleId := Suppression.allRules
  line := .int 1
  column := .int 1
  target := .int Number.longInteger

theorem not_tellable_farSuppression : ¬ Tellable none farSuppression := by
  rintro (hshort | ⟨rs, hrs, -⟩)
  · rw [farSuppression, Numeral.isShort, Number.isShort_longInteger] at hshort
    cases hshort
  · cases hrs

/-- It matches nothing, and instead of a note on it there is no report. -/
theorem farSuppression_has_no_report :
    Reportable none farSuppression ∧ ¬ ∃ r, aggregate [] [farSuppression] [] none = .ok r := by
  have hreportable : Reportable none farSuppression := by decide
  refine ⟨hreportable, ?_⟩
  rintro ⟨r, hr⟩
  have hnoted := noted_of_aggregate hr
  exact not_tellable_farSuppression (hnoted farSuppression (by simp) (by simp) hreportable)

end Report

end ComponentLint

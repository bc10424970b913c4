-- What a run makes of its units. Each is analyzed or skipped on its own,
-- however many are worked on at a time, and the result is put together from
-- what became of them: so it can be told for every list of units.
import ComponentLint.Proofs.ReportMerge

namespace ComponentLint

/-! ## Units one by one -/

namespace Workspace

/-- The note on a unit that is skipped: the run has been called off, or the unit cannot be read. -/
def skip? (w : Workspace) (u : RunUnit) : Option SkippedUnit :=
  if u.stopped then some ⟨u.path.toText, cancelledReason⟩
  else
    match w.readModel u.path with
    | .error fault => some ⟨u.path.toText, fault.reason⟩
    | .ok _ => none

/-- The report on a unit that is analyzed. -/
def report? (w : Workspace) (rs : ActiveRules) (u : RunUnit) : Option Report :=
  if u.stopped then none
  else
    match w.readModel u.path with
    | .error _ => none
    | .ok m => (Report.ofModel m rs).toOption

end Workspace

/-! ## Reasons -/

theorem Heading.colon_mem_located {n : Heading} {sentence : Except Number.LongInteger String}
    {text : String} (h : n.located sentence = .ok text) : ':' ∈ text.toList := by
  obtain ⟨words, -, h⟩ := bind_eq_ok_iff.mp h
  obtain ⟨place, -, h⟩ := bind_eq_ok_iff.mp h
  cases h
  simp

theorem Malformed.colon_mem_message (m : Malformed) : ':' ∈ m.message.toList := by
  have htext : ∀ s : String, toString s = s := fun _ => rfl
  obtain ⟨defect, message, worded⟩ := m
  cases defect with
  | node path fault =>
    cases worded
    simp [htext]
  | document origin fault =>
    cases worded
    cases fault <;> simp [DocumentFault.message, htext]
  | _ => exact Heading.colon_mem_located worded

/-- No unit that cannot be read is skipped with the words for a run that has been called off. -/
theorem UnitFault.reason_ne_cancelled (fault : UnitFault) : fault.reason ≠ cancelledReason := by
  intro h
  -- The reasons of units that cannot be read have a colon in them, but for one.
  have hcolon : ':' ∉ fault.reason.toList := by
    rw [h]
    decide
  apply hcolon
  unfold reason
  cases hclass : fault.className? with
  | some name => simp
  | none =>
    cases fault with
    | load fault =>
      cases fault with
      | malformed m => exact m.colon_mem_message
      | _ => cases hclass
    | yaml fault =>
      cases fault with
      | invalid => exact absurd h (by decide)
      | _ => cases hclass
    | _ => cases hclass

/-! ## What becomes of the units -/

namespace Workspace

variable {w : Workspace} {rs : ActiveRules}

/-- A unit that is taken up is skipped or has its report. -/
theorem of_lintUnit {u : RunUnit} {run : UnitRun} (h : w.lintUnit rs u.stopped u.path = .ok run) :
    run.outcome.skipped? = w.skip? u ∧ run.outcome.report? = w.report? rs u ∧
      (w.skip? u).isSome = !(w.report? rs u).isSome := by
  unfold lintUnit at h
  unfold skip? report?
  by_cases hstopped : u.stopped
  · rw [if_pos hstopped] at h
    cases h
    simp [hstopped, UnitOutcome.skipped?, UnitOutcome.report?]
  · rw [if_neg hstopped] at h
    rw [if_neg hstopped, if_neg hstopped]
    cases hread : w.readModel u.path with
    | error fault =>
      rw [hread] at h
      cases h
      exact ⟨rfl, rfl, rfl⟩
    | ok m =>
      rw [hread] at h
      obtain ⟨analysis, hanalysis, h⟩ := bind_eq_ok_iff.mp h
      obtain ⟨report, hreport, hrun⟩ := bind_eq_ok_iff.mp h
      cases hrun
      dsimp only
      rw [Report.ofModel, hanalysis]
      change _ ∧ _ = Except.toOption (Report.ofAnalysis m rs analysis) ∧
        _ = !(Except.toOption (Report.ofAnalysis m rs analysis)).isSome
      rw [hreport]
      exact ⟨rfl, rfl, rfl⟩

theorem of_mapM_lintUnit {units : List RunUnit} {runs : List UnitRun}
    (h : units.mapM (fun u => w.lintUnit rs u.stopped u.path) = .ok runs) :
    (runs.map UnitRun.outcome).filterMap UnitOutcome.skipped? = units.filterMap w.skip? ∧
      (runs.map UnitRun.outcome).filterMap UnitOutcome.report? = units.filterMap (w.report? rs) ∧
      ∀ u ∈ units, (w.skip? u).isSome = !(w.report? rs u).isSome := by
  induction units generalizing runs with
  | nil =>
    cases h
    simp
  | cons u units ih =>
    obtain ⟨run, rest, hrun, hrest, rfl⟩ := mapM_cons_eq_ok_iff.mp h
    obtain ⟨hskip, hreport, hone⟩ := of_lintUnit hrun
    obtain ⟨hskips, hreports, hall⟩ := ih hrest
    refine ⟨?_, ?_, List.forall_mem_cons.mpr ⟨hone, hall⟩⟩
    · rw [List.map_cons, List.filterMap_cons, List.filterMap_cons, hskip, hskips]
    · rw [List.map_cons, List.filterMap_cons, List.filterMap_cons, hreport, hreports]

theorem ranked_of_mem_reports {units : List RunUnit} {r : Report}
    (h : r ∈ units.filterMap (w.report? rs)) : r.Ranked := by
  obtain ⟨u, -, hu⟩ := List.mem_filterMap.mp h
  unfold report? at hu
  split at hu
  · cases hu
  · split at hu
    · cases hu
    · rename_i m hread
      cases hreport : Report.ofModel m rs with
      | error fault => simp [hreport, Except.toOption] at hu
      | ok report =>
        rw [hreport] at hu
        cases hu
        exact Report.ranked_of_ofModel hreport

/-- Whether a unit is skipped with the words for a run that has been called off. -/
theorem reason_of_skip? {u : RunUnit} {s : SkippedUnit} (h : w.skip? u = some s) :
    s.reason = cancelledReason ↔ u.stopped := by
  unfold skip? at h
  split at h
  · rename_i hstopped
    cases h
    simp [hstopped]
  · rename_i hstopped
    split at h
    · rename_i fault hread
      cases h
      simp [hstopped, fault.reason_ne_cancelled]
    · cases h

theorem any_cancelled_iff (units : List RunUnit) :
    ((units.filterMap w.skip?).any fun s => s.reason == cancelledReason) = true ↔
      ∃ u ∈ units, u.stopped := by
  rw [List.any_eq_true]
  constructor
  · rintro ⟨s, hs, hreason⟩
    obtain ⟨u, hu, hskip⟩ := List.mem_filterMap.mp hs
    exact ⟨u, hu, (reason_of_skip? hskip).mp (beq_iff_eq.mp hreason)⟩
  · rintro ⟨u, hu, hstopped⟩
    have hskip : w.skip? u = some ⟨u.path.toText, cancelledReason⟩ := if_pos hstopped
    exact ⟨_, List.mem_filterMap.mpr ⟨u, hu, hskip⟩, beq_self_eq_true _⟩

end Workspace

/-! ## The result of a run -/

/-- The result of a run of some rules over units, with a threshold for failing. -/
structure Workspace.Conducted (w : Workspace) (rs : ActiveRules) (failOn : Severity)
    (units : List RunUnit) (result : RunResult) : Prop where
  /-- Every unit is either skipped or analyzed. -/
  each : ∀ u ∈ units, (w.skip? u).isSome = !(w.report? rs u).isSome
  skipped : result.skipped = units.filterMap w.skip?
  unitsAnalyzed : result.unitsAnalyzed = (units.filterMap (w.report? rs)).length
  counted : result.unitsAnalyzed + result.skipped.length = units.length
  cancelled : result.cancelled = true ↔ ∃ u ∈ units, u.stopped
  findings : StablySorted Finding.order
    ((units.filterMap (w.report? rs)).flatMap Report.findings) result.findings
  errors : StablySorted Report.errorOrder
    ((units.filterMap (w.report? rs)).flatMap Report.errors) result.report.errors
  exitCode : result.exitCode = .ok
    (if ∃ r ∈ units.filterMap (w.report? rs), ∃ f ∈ r.findings, f.reaches failOn then 1 else 0)

/-- Two results that differ in the order of things only. -/
structure RunResult.SameUpToOrder (result result' : RunResult) : Prop where
  findings : result.findings.Perm result'.findings
  errors : result.report.errors.Perm result'.report.errors
  skipped : result.skipped.Perm result'.skipped
  counts : result.report.counts = result'.report.counts
  unitsAnalyzed : result.unitsAnalyzed = result'.unitsAnalyzed
  cancelled : result.cancelled = result'.cancelled
  exitCode : result.exitCode = result'.exitCode

theorem length_filterMap_add {α β γ : Type} {f : α → Option β} {g : α → Option γ} {l : List α}
    (h : ∀ a ∈ l, (f a).isSome = !(g a).isSome) :
    (l.filterMap g).length + (l.filterMap f).length = l.length := by
  induction l with
  | nil => rfl
  | cons a l ih =>
    obtain ⟨ha, hl⟩ := List.forall_mem_cons.mp h
    have hrest := ih hl
    rw [List.filterMap_cons, List.filterMap_cons, List.length_cons]
    cases hf : f a <;> cases hg : g a <;> simp_all <;> omega

theorem RunResult.exitCode_of_ranked {result : RunResult} {failOn : Severity}
    (h : result.report.Ranked) (hfailOn : result.failOn = failOn.name) :
    result.exitCode = .ok (if ∃ f ∈ result.findings, f.reaches failOn then 1 else 0) := by
  unfold exitCode shouldFail
  rw [hfailOn, Report.hasAtLeast_of_ranked h]
  refine congrArg Except.ok (if_congr ?_ rfl rfl)
  rw [List.any_eq_true]
  rfl

namespace Workspace

/-- The result of a run whose units make a report. -/
def resultOf (w : Workspace) (rs : ActiveRules) (config : Configuration) (failOn : Severity)
    (units : List RunUnit) (report : Report) : RunResult where
  report
  unitsAnalyzed := (units.filterMap (w.report? rs)).length
  rulesEvaluated := rs.rules.length
  skipped := units.filterMap w.skip?
  configErrors := config.errors
  failOn := failOn.name
  cancelled := (units.filterMap w.skip?).any fun s => s.reason == cancelledReason

section

variable {w : Workspace} {c : Catalog} {request : RunRequest} {config : Configuration}
  {rs : ActiveRules} {failOn : Severity}
  (hconfig : w.configuration c request.configs = .ok config)
  (hrun : resolveRun c config request.failOn = .ok (rs, failOn))
include hconfig hrun

theorem outcome_of_resolved :
    (w.lint c request).outcome =
      (w.lintUnits rs request).mapError (.ofStop .unranked) >>= fun runs =>
      (RunResult.ofUnits rs config failOn (runs.map UnitRun.outcome)).mapError .unranked := by
  rw [outcome_lint, hconfig]
  change (resolveRun c config request.failOn >>= _) = _
  rw [hrun]
  rfl

theorem settles_units :
    Settles (fun stop => stop = .longInteger ∧ ∃ u ∈ request.units, ¬ w.Writable rs u)
      (fun runs => (∀ u ∈ request.units, w.Writable rs u) ∧
        ∀ run ∈ runs, ∀ r ∈ run.outcome.report?, r.Ranked) (w.lintUnits rs request) := by
  obtain ⟨layers, -, hlayers⟩ := configuration_eq_ok_iff.mp hconfig
  have hresolve := resolve_of_resolveRun hrun
  exact settles_lintUnits (Catalog.of_resolve hresolve).1
    (Catalog.isSome_severity_of_ranked (Configuration.ranked_ofLayers hlayers) hresolve) request

/-- A run whose configuration is usable ends with the result that its units make, as far as all
there is to report on them can be written. -/
theorem lint_eq_resultOf (hwritable : ∀ u ∈ request.units, w.Writable rs u) :
    (∀ u ∈ request.units, (w.skip? u).isSome = !(w.report? rs u).isSome) ∧
      ∃ report, Report.merge (request.units.filterMap (w.report? rs)) = .ok report ∧
        (w.lint c request).outcome = .ok (w.resultOf rs config failOn request.units report) := by
  have hunits := settles_units hconfig hrun
  rw [outcome_of_resolved hconfig hrun]
  cases hruns : w.lintUnits rs request with
  | error stop =>
    obtain ⟨-, u, hu, hlong⟩ := hunits.of_eq_error hruns
    exact absurd (hwritable u hu) hlong
  | ok runs =>
    obtain ⟨hskipped, hreports, heach⟩ :=
      of_mapM_lintUnit ((lintUnits_eq w rs request).symm.trans hruns)
    have hranked : ∀ r ∈ request.units.filterMap (w.report? rs), r.Ranked :=
      fun r hr => ranked_of_mem_reports hr
    obtain ⟨report, hreport, -⟩ := Report.merge_of_ranked hranked
    refine ⟨heach, report, hreport, ?_⟩
    change Except.mapError _ (RunResult.ofUnits rs config failOn _) = _
    unfold RunResult.ofUnits
    dsimp only
    rw [hskipped, hreports, hreport]
    rfl

theorem exists_result_iff :
    (∃ result, (w.lint c request).outcome = .ok result) ↔ ∀ u ∈ request.units, w.Writable rs u := by
  refine ⟨?_, fun hwritable => ?_⟩
  · rintro ⟨result, hresult⟩
    rw [outcome_of_resolved hconfig hrun] at hresult
    obtain ⟨runs, hruns, -⟩ := bind_eq_ok_iff.mp hresult
    exact ((settles_units hconfig hrun).of_eq_ok (mapError_eq_ok_iff.mp hruns)).1
  · obtain ⟨-, report, -, hresult⟩ := lint_eq_resultOf hconfig hrun hwritable
    exact ⟨_, hresult⟩

end

section

variable {w : Workspace} {rs : ActiveRules} {units : List RunUnit} {report : Report}
  (hreport : Report.merge (units.filterMap (w.report? rs)) = .ok report)
  (config : Configuration) (failOn : Severity)
include hreport

theorem report_of_units : report.Ranked ∧
    StablySorted Finding.order ((units.filterMap (w.report? rs)).flatMap Report.findings)
      report.findings ∧
    StablySorted Report.errorOrder ((units.filterMap (w.report? rs)).flatMap Report.errors)
      report.errors := by
  obtain ⟨merged, hmerged, hmerges⟩ :=
    Report.merge_of_ranked fun r hr => ranked_of_mem_reports hr
  cases hreport.symm.trans hmerged
  exact hmerges

theorem conducted_resultOf
    (heach : ∀ u ∈ units, (w.skip? u).isSome = !(w.report? rs u).isSome) :
    w.Conducted rs failOn units (w.resultOf rs config failOn units report) := by
  obtain ⟨hranked, hfindings, herrors⟩ := report_of_units hreport
  refine ⟨heach, rfl, rfl, length_filterMap_add heach, any_cancelled_iff units, hfindings, herrors,
    ?_⟩
  rw [RunResult.exitCode_of_ranked hranked rfl]
  refine congrArg Except.ok (if_congr ?_ rfl rfl)
  change (∃ f ∈ report.findings, _) ↔ _
  simp only [hfindings.perm.mem_iff, List.mem_flatMap]
  grind

/-- Units that are not analyzed leave no trace in what is put together of the others. -/
theorem resultOf_drop {before after : List RunUnit} {u : RunUnit}
    (hunits : units = before ++ u :: after) (hskip : w.report? rs u = none) :
    Report.merge ((before ++ after).filterMap (w.report? rs)) = .ok report ∧
      w.resultOf rs config failOn (before ++ after) report =
        { w.resultOf rs config failOn units report with
          skipped := (before ++ after).filterMap w.skip?
          cancelled := ((before ++ after).filterMap w.skip?).any
            fun s => s.reason == cancelledReason } := by
  have hreports : units.filterMap (w.report? rs) = (before ++ after).filterMap (w.report? rs) := by
    rw [hunits, List.filterMap_append, List.filterMap_cons_none hskip, List.filterMap_append]
  rw [← hreports]
  refine ⟨hreport, ?_⟩
  unfold resultOf
  rw [hreports]

theorem sameUpToOrder_resultOf {units' : List RunUnit} {report' : Report}
    (hreport' : Report.merge (units'.filterMap (w.report? rs)) = .ok report')
    (hperm : units.Perm units') :
    (w.resultOf rs config failOn units report).SameUpToOrder
      (w.resultOf rs config failOn units' report') := by
  obtain ⟨hranked, hfindings, herrors⟩ := report_of_units hreport
  obtain ⟨hranked', hfindings', herrors'⟩ := report_of_units hreport'
  have hreports := hperm.filterMap (w.report? rs)
  have hskipped := hperm.filterMap w.skip?
  have hsame : report.findings.Perm report'.findings :=
    hfindings.perm.trans ((hreports.flatMap_right _).trans hfindings'.perm.symm)
  refine ⟨hsame, herrors.perm.trans ((hreports.flatMap_right _).trans herrors'.perm.symm), hskipped,
    Report.counts_eq_of_perm hranked hsame, hreports.length_eq, hskipped.any_eq, ?_⟩
  rw [RunResult.exitCode_of_ranked hranked rfl, RunResult.exitCode_of_ranked hranked' rfl]
  refine congrArg Except.ok (if_congr ?_ rfl rfl)
  change (∃ f ∈ report.findings, _) ↔ ∃ f ∈ report'.findings, _
  simp only [hsame.mem_iff]

end

end Workspace

/-- A run whose configuration is usable ends with a result exactly when what there is to report on
each of its units can be written. The result follows from what becomes of the units one by one,
however many are worked on at a time and whichever of them find the run called off. Without a unit
that is skipped the rest of the result is the same, the order of the units shows in the order of
things only, and reports can be merged in groups. -/
theorem runs_follow_from_their_units (w : Workspace) (c : Catalog) (request : RunRequest)
    {config : Configuration} {rs : ActiveRules} {failOn : Severity}
    (hconfig : w.configuration c request.configs = .ok config)
    (hrun : resolveRun c config request.failOn = .ok (rs, failOn)) :
    ((∃ result, (w.lint c request).outcome = .ok result) ↔
      ∀ u ∈ request.units, w.Writable rs u) ∧
    (∀ result, (w.lint c request).outcome = .ok result →
      w.Conducted rs failOn request.units result ∧
      ∀ other : RunRequest, other.configs = request.configs → other.failOn = request.failOn →
        (∀ before u after, request.units = before ++ u :: after → (w.skip? u).isSome →
          other.units = before ++ after →
          ∃ skipped cancelled, (w.lint c other).outcome =
            .ok { result with skipped := skipped, cancelled := cancelled }) ∧
        (request.units.Perm other.units →
          ∃ result', (w.lint c other).outcome = .ok result' ∧ result.SameUpToOrder result')) ∧
    ∀ as bs : List Report,
      (Report.merge as >>= fun a => Report.merge bs >>= fun b => Report.merge [a, b]) =
        Report.merge (as ++ bs) := by
  have hexists := Workspace.exists_result_iff hconfig hrun
  refine ⟨hexists, fun result hresult => ?_, Report.merge_groups⟩
  have hwritable := hexists.mp ⟨result, hresult⟩
  obtain ⟨heach, report, hreport, hmade⟩ := Workspace.lint_eq_resultOf hconfig hrun hwritable
  obtain rfl := Except.ok.inj (hresult.symm.trans hmade)
  refine ⟨Workspace.conducted_resultOf hreport config failOn heach, ?_⟩
  intro other hconfigs hfailOn
  -- The same configuration makes the same rules and the same threshold of the other run.
  rw [← hconfigs] at hconfig
  rw [← hfailOn] at hrun
  refine ⟨?_, fun hperm => ?_⟩
  · intro before u after hunits hskip hother
    have hrest : ∀ u ∈ other.units, w.Writable rs u := by
      intro u' hu'
      refine hwritable u' ?_
      rw [hother] at hu'
      rw [hunits]
      simp only [List.mem_append, List.mem_cons] at hu' ⊢
      exact hu'.imp_right Or.inr
    obtain ⟨-, report', hreport', hresult'⟩ := Workspace.lint_eq_resultOf hconfig hrun hrest
    have hnone : w.report? rs u = none := by
      simpa [hskip] using heach u (by simp [hunits])
    obtain ⟨hsame, hdrop⟩ := Workspace.resultOf_drop hreport config failOn hunits hnone
    rw [← hother] at hsame hdrop
    obtain rfl := Except.ok.inj (hsame.symm.trans hreport')
    exact ⟨_, _, hresult'.trans (congrArg Except.ok hdrop)⟩
  · obtain ⟨-, report', hreport', hresult'⟩ := Workspace.lint_eq_resultOf hconfig hrun
      fun u hu => hwritable u (hperm.mem_iff.mpr hu)
    exact ⟨_, hresult', Workspace.sameUpToOrder_resultOf hreport config failOn hreport' hperm⟩

/-- A folder with one unit, of no nodes. -/
def bareUnit : Workspace where
  tree := .folder [("a.yml", .file [123, 102, 105, 108, 101, 58, 32, 65, 125])]
  here := []

/-- A run over that unit and a missing one, which is called off before it comes to the last. -/
def calledOff : RunRequest where
  models := [Path.ofText "a.yml", Path.ofText "b.yml", Path.ofText "a.yml"]
  stopped place := place == 2

theorem writable_calledOff (rs : ActiveRules) : ∀ u ∈ calledOff.units, bareUnit.Writable rs u := by
  have hbare : ∀ u ∈ calledOff.units, (bareUnit.readModel u.path).toOption.all
      (fun m => m.roots.isEmpty && m.suppressions.isEmpty) = true := by decide +kernel
  intro u hu _ m hm
  have hempty := hbare u hu
  rw [hm] at hempty
  obtain ⟨hroots, hsuppressions⟩ := Bool.and_eq_true_iff.mp hempty
  rw [List.isEmpty_iff] at hroots hsuppressions
  refine ⟨?_, by simp [Report.Noted, hsuppressions]⟩
  simp [Survey.ofModel, Survey.ofEvaluations, hroots, Evaluation.ofForest]

theorem calledOff_follows_from_its_units :
    ∃ result result', (bareUnit.lint .standard calledOff).outcome = .ok result ∧
      result.skipped =
        [⟨"b.yml",
          "b.yml: cannot read model document: [Errno 2] No such file or directory: 'b.yml'"⟩,
          ⟨"a.yml", "cancelled"⟩] ∧
      result.unitsAnalyzed = 1 ∧ result.cancelled = true ∧
      (bareUnit.lint .standard
        { models := [Path.ofText "a.yml", Path.ofText "b.yml"] }).outcome = .ok result' ∧
      result'.report = result.report ∧ result'.unitsAnalyzed = 1 := by
  obtain ⟨config, rs, hconfig, hrs⟩ := Catalog.exists_resolve_standard
  have hconfig : bareUnit.configuration .standard [] = .ok config :=
    Workspace.configuration_eq_ok_iff.mpr ⟨[], rfl, hconfig⟩
  have hrun : resolveRun .standard config none = .ok (rs, config.failOn) := by
    simp only [resolveRun, hrs]
    rfl
  obtain ⟨hexists, hresults, -⟩ :=
    runs_follow_from_their_units bareUnit .standard calledOff hconfig hrun
  obtain ⟨result, hresult⟩ := hexists.mpr (writable_calledOff rs)
  obtain ⟨hconducted, hother⟩ := hresults result hresult
  obtain ⟨skipped, cancelled, hdropped⟩ :=
    (hother { models := [Path.ofText "a.yml", Path.ofText "b.yml"] } rfl rfl).1
      [⟨Path.ofText "a.yml", false⟩, ⟨Path.ofText "b.yml", false⟩]
      ⟨Path.ofText "a.yml", true⟩ [] rfl rfl rfl
  have hskipped : result.skipped =
      [⟨"b.yml", "b.yml: cannot read model document: [Errno 2] No such file or directory: 'b.yml'"⟩,
        ⟨"a.yml", "cancelled"⟩] := by
    rw [hconducted.skipped]
    decide +kernel
  have hanalyzed : result.unitsAnalyzed = 1 := by
    have hcounted := hconducted.counted
    rw [hskipped] at hcounted
    exact Nat.add_right_cancel hcounted
  refine ⟨result, _, hresult, hskipped, hanalyzed, ?_, hdropped, rfl, hanalyzed⟩
  have hmem : ⟨Path.ofText "a.yml", true⟩ ∈ calledOff.units := by
    simp [calledOff, RunRequest.units]
  exact hconducted.cancelled.mpr ⟨_, hmem, rfl⟩

end ComponentLint

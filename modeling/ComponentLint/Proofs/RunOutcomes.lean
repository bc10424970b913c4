-- How runs end. Whatever the files hold, the units of a run are analyzed or
-- skipped, and a configuration that is refused is refused as unusable. What
-- gets past that is in the reading of a configuration file, and in integers
-- that are to be written and have too many digits: the run then ends with
-- whatever went wrong first.
import ComponentLint.Command.Lint
import ComponentLint.Proofs.FirstFailure
import ComponentLint.Proofs.ResolvedRules
import ComponentLint.Proofs.Resolution
import ComponentLint.Proofs.SourceEdits

namespace ComponentLint

open ComponentLint.Number

/-! ## Reports -/

/-- A report whose findings all have a rank. -/
def Report.Ranked (r : Report) : Prop := ∀ f ∈ r.findings, f.severity?.isSome

theorem Report.ranked_of_ofModel {m : Model} {rs : ActiveRules} {r : Report}
    (h : Report.ofModel m rs = .ok r) : r.Ranked := by
  obtain ⟨a, -, h⟩ := Report.ofModel_eq_ok_iff.mp h
  obtain ⟨-, hsort, -⟩ := Report.aggregate_eq_ok_iff.mp h
  obtain ⟨hranked, hfindings⟩ := Finding.sort_eq_ok_iff.mp hsort
  intro f hf
  rw [hfindings, (List.mergeSort_perm _ _).mem_iff] at hf
  exact hranked f hf

/-- Where what there is to report on a unit cannot be written, the attempt ends the report. -/
theorem Report.ofModel_of_not_writable {rs : ActiveRules} (hindexed : rs.Indexed) {m : Model}
    (h : ¬ Report.Writable m rs) : Report.ofModel m rs = .error .longInteger := by
  unfold ofModel
  cases hanalysis : Analysis.ofModel m rs with
  | error e => rfl
  | ok a =>
    have hrecordable := (Analysis.exists_ofModel_iff hindexed).mp ⟨a, hanalysis⟩
    have hfindings := ((Analysis.ofModel_eq_ok_iff hindexed).mp hanalysis).1
    have hnoted : ¬ Noted a.findings m.suppressions (some rs) := by
      rw [hfindings]
      exact fun hnoted => h ⟨hrecordable, hnoted⟩
    exact aggregate_of_not_noted _ _ _ a.errors hnoted

theorem Report.exists_merge {reports : List Report} (h : ∀ r ∈ reports, r.Ranked) :
    ∃ merged, Report.merge reports = .ok merged := by
  have hranked : ∀ f ∈ reports.flatMap Report.findings, f.severity?.isSome := by
    intro f hf
    obtain ⟨r, hr, hf⟩ := List.mem_flatMap.mp hf
    exact h r hr f hf
  exact ⟨_, bind_eq_ok_iff.mpr ⟨_, Finding.sort_eq_ok_iff.mpr ⟨hranked, rfl⟩, rfl⟩⟩

/-- A unit of a run, and whether the run has been called off when it is taken up. -/
structure RunUnit where
  path : Path
  stopped : Bool

/-- The units of a request, in the order of their paths. -/
def RunRequest.units (request : RunRequest) : List RunUnit :=
  request.models.zipIdx.map fun e => ⟨e.1, request.stopped e.2⟩

theorem flatten_batches {α : Type} (size : Nat) (items : List α) :
    (batches size items).flatten = items := by
  fun_induction batches size items with
  | case1 items h hempty => simp_all
  | case2 items h hempty => simp_all
  | case3 items h ih => simp [ih]

namespace Workspace

variable {w : Workspace} {rs : ActiveRules}

/-- Units are taken up in order, in batches of any size. -/
theorem lintUnits_eq (w : Workspace) (rs : ActiveRules) (request : RunRequest) :
    w.lintUnits rs request = request.units.mapM fun u => w.lintUnit rs u.stopped u.path := by
  unfold lintUnits RunRequest.units
  rw [List.mapM_map]
  exact (mapM_flatten (fun e : Path × Nat => w.lintUnit rs (request.stopped e.2) e.1) _).trans
    (by rw [flatten_batches]; rfl)

/-- What there is to report on a unit can be written, if it comes to a report at all. -/
def Writable (w : Workspace) (rs : ActiveRules) (u : RunUnit) : Prop :=
  u.stopped = false → ∀ m, w.readModel u.path = .ok m → Report.Writable m rs

theorem ranked_of_lintUnit {stopped : Bool} {path : Path} {run : UnitRun}
    (h : w.lintUnit rs stopped path = .ok run) : ∀ r ∈ run.outcome.report?, r.Ranked := by
  unfold lintUnit at h
  split at h
  · cases h
    simp [UnitOutcome.report?]
  · split at h
    · cases h
      simp [UnitOutcome.report?]
    · obtain ⟨analysis, hanalysis, h⟩ := bind_eq_ok_iff.mp h
      obtain ⟨report, hreport, hrun⟩ := bind_eq_ok_iff.mp h
      cases hrun
      rintro r ⟨⟩
      exact Report.ranked_of_ofModel (bind_eq_ok_iff.mpr ⟨analysis, hanalysis, hreport⟩)

section

variable (hindexed : rs.Indexed)
include hindexed

/-- Where what there is to report on a unit cannot be written, the attempt ends the run. -/
theorem lintUnit_of_not_writable {u : RunUnit} (h : ¬ w.Writable rs u) :
    w.lintUnit rs u.stopped u.path = .error .longInteger := by
  simp only [Writable, not_forall] at h
  obtain ⟨hstopped, m, hm, hlong⟩ := h
  have hreport := Report.ofModel_of_not_writable hindexed hlong
  unfold Report.ofModel at hreport
  unfold lintUnit
  simp only [hstopped, hm]
  cases hanalysis : Analysis.ofModel m rs with
  | error e => rfl
  | ok a =>
    rw [hanalysis] at hreport
    change (Report.ofAnalysis m rs a >>= _) = _
    rw [show Report.ofAnalysis m rs a = .error .longInteger from hreport]
    rfl

variable (hranked : ∀ r ∈ rs.rules, (Severity.ofName? r.severity).isSome)
include hranked

theorem exists_lintUnit {u : RunUnit} (h : w.Writable rs u) :
    ∃ run, w.lintUnit rs u.stopped u.path = .ok run := by
  unfold lintUnit
  cases hstopped : u.stopped with
  | true => exact ⟨_, rfl⟩
  | false =>
    rw [if_neg (by simp)]
    cases hread : w.readModel u.path with
    | error fault => exact ⟨_, rfl⟩
    | ok m =>
      obtain ⟨r, hr⟩ := (Report.exists_ofModel_iff hindexed hranked m).mpr (h hstopped m hread)
      obtain ⟨a, ha, hr⟩ := bind_eq_ok_iff.mp hr
      exact ⟨_, bind_eq_ok_iff.mpr ⟨a, ha, bind_eq_ok_iff.mpr ⟨r, hr, rfl⟩⟩⟩

/-- The units of a run are all taken up when all there is to report can be written; else the run
ends there. -/
theorem settles_lintUnits (request : RunRequest) :
    Settles (fun stop => stop = .longInteger ∧ ∃ u ∈ request.units, ¬ w.Writable rs u)
      (fun runs => (∀ u ∈ request.units, w.Writable rs u) ∧
        ∀ run ∈ runs, ∀ r ∈ run.outcome.report?, r.Ranked) (w.lintUnits rs request) := by
  rw [lintUnits_eq]
  cases hruns : request.units.mapM fun u => w.lintUnit rs u.stopped u.path with
  | error stop =>
    obtain ⟨before, u, after, hsplit, -, hfails⟩ := mapM_eq_error_iff.mp hruns
    have hlong : ¬ w.Writable rs u := by
      intro hwritable
      obtain ⟨run, hrun⟩ := exists_lintUnit hindexed hranked hwritable
      cases hrun.symm.trans hfails
    cases (lintUnit_of_not_writable hindexed hlong).symm.trans hfails
    exact ⟨rfl, u, by simp [hsplit], hlong⟩
  | ok runs =>
    refine ⟨fun u hu => ?_, fun run hrun => ?_⟩
    · by_contra hlong
      obtain ⟨run, hrun⟩ := exists_mapM_iff.mp ⟨runs, hruns⟩ u hu
      cases (lintUnit_of_not_writable hindexed hlong).symm.trans hrun
    · obtain ⟨u, -, hunit⟩ := (mem_mapM_iff hruns).mp hrun
      exact ranked_of_lintUnit hunit

end

/-! ## Runs -/

/-- A run goes through its configuration, its rules and its units in turn. -/
theorem outcome_lint (w : Workspace) (c : Catalog) (request : RunRequest) :
    (w.lint c request).outcome =
      w.configuration c request.configs >>= fun config =>
      resolveRun c config request.failOn >>= fun rules =>
      (w.lintUnits rules.1 request).mapError (.ofStop .unranked) >>= fun runs =>
      (RunResult.ofUnits rules.1 config rules.2 (runs.map UnitRun.outcome)).mapError
        .unranked := by
  unfold lint
  cases w.configuration c request.configs with
  | error fault => rfl
  | ok config =>
    dsimp only
    cases hrun : resolveRun c config request.failOn with
    | error fault =>
      simp only [bind, Except.bind, hrun]
    | ok rules =>
      simp only [bind, Except.bind, hrun]
      cases w.lintUnits rules.1 request with
      | error stop => rfl
      | ok runs => rfl

end Workspace

theorem resolve_of_resolveRun {c : Catalog} {config : Configuration} {failOn : Option String}
    {rules : ActiveRules × Severity} (h : resolveRun c config failOn = .ok rules) :
    c.resolve config = .ok rules.1 := by
  obtain ⟨rs, hrs, h⟩ := bind_eq_ok_iff.mp h
  split at h
  all_goals
    obtain ⟨severity, -, h⟩ := bind_eq_ok_iff.mp h
    cases h
    exact mapError_eq_ok_iff.mp hrs

/-! ## Configuration files -/

/-- A version is refused as unusable if it can be written. -/
theorem LayerFault.ofVersion_cases (source : String) (version : Value) :
    (∃ e, ofVersion source version = .invalid e) ∨
      ofVersion source version = .longInteger ∧ version.writable = false := by
  unfold ofVersion
  rw [Value.written_eq]
  cases version.writable with
  | true => exact Or.inl ⟨_, rfl⟩
  | false => exact Or.inr ⟨rfl, rfl⟩

namespace Layer

variable {source : String} {v : Value}

/-- A mapping makes a layer if its version is the first one. -/
theorem ofDocument_of_map {entries : List (Value × Value)} (h : v.unfold = .map entries) :
    ofDocument source v =
      let version := (v.field? "version").getD (.int 1)
      match version, version.unhashable? with
      | .set _, _ => .error (.ofVersion source version)
      | _, some part => .error (.unhashable part.typeName)
      | _, none =>
        if version.wholeNumber? = some 1 then .ok ⟨source, v⟩
        else .error (.ofVersion source version) := by
  cases v with
  | map entries' => rfl
  | knot label body =>
    unfold ofDocument
    simp only [h]
    rfl
  | _ => cases h

theorem ofDocument_of_ne_map (source : String) (h : ∀ entries, v.unfold ≠ .map entries) :
    (∃ l, ofDocument source v = .ok l) ∨ ∃ e, ofDocument source v = .error (.invalid e) := by
  cases v with
  | null => exact Or.inl ⟨_, rfl⟩
  | map entries => exact absurd rfl (h entries)
  | knot label body =>
    unfold ofDocument
    dsimp only
    split
    · rename_i entries hmap
      exact absurd hmap (h entries)
    · exact Or.inr ⟨_, rfl⟩
  | _ => exact Or.inr ⟨_, rfl⟩

/-- A document makes no layer if it is no mapping of the first version, or if its version has no
hash or cannot be written. -/
theorem of_ofDocument_eq_error {fault : LayerFault} (h : ofDocument source v = .error fault) :
    (∃ e, fault = .invalid e) ∨ ∃ version, v.field? "version" = some version ∧
      (fault.className = "TypeError" ∧ (∀ members, version ≠ .set members) ∧
          (∃ part, version.unhashable? = some part) ∨
        fault.className = "ValueError" ∧
          ((∃ members, version = .set members) ∨ version.unhashable? = none) ∧
          version.wholeNumber? ≠ some 1 ∧ version.writable = false) := by
  by_cases hmap : ∃ entries, v.unfold = .map entries
  · obtain ⟨entries, hmap⟩ := hmap
    rw [ofDocument_of_map hmap] at h
    cases hversion : v.field? "version" with
    | none =>
      rw [hversion] at h
      cases h
    | some version =>
      rw [hversion, Option.getD_some] at h
      by_cases hset : ∃ members, version = .set members
      · obtain ⟨members, rfl⟩ := hset
        cases h
        rcases LayerFault.ofVersion_cases source (.set members) with ⟨e, he⟩ | ⟨hfault, hlong⟩
        · exact Or.inl ⟨e, he⟩
        · rw [hfault]
          exact Or.inr ⟨_, rfl, Or.inr ⟨rfl, Or.inl ⟨members, rfl⟩, by simp [Value.wholeNumber?],
            hlong⟩⟩
      · rw [not_exists] at hset
        cases hpart : version.unhashable? with
        | some part =>
          simp only [hpart] at h
          cases h
          exact Or.inr ⟨version, rfl, Or.inl ⟨rfl, hset, part, hpart⟩⟩
        | none =>
          simp only [hpart] at h
          split at h
          · cases h
          · rename_i hother
            cases h
            rcases LayerFault.ofVersion_cases source version with ⟨e, he⟩ | ⟨hfault, hlong⟩
            · exact Or.inl ⟨e, he⟩
            · rw [hfault]
              exact Or.inr ⟨version, rfl, Or.inr ⟨rfl, Or.inr hpart, hother, hlong⟩⟩
  · rcases ofDocument_of_ne_map source (not_exists.mp hmap) with ⟨l, hl⟩ | ⟨e, he⟩
    · cases hl.symm.trans h
    · cases he.symm.trans h
      exact Or.inl ⟨e, rfl⟩

end Layer

namespace Workspace

variable {w : Workspace} {p : Path}

theorem configuration_eq_ok_iff {c : Catalog} {configs : List Path} {config : Configuration} :
    w.configuration c configs = .ok config ↔ ∃ layers, configs.mapM w.readLayer = .ok layers ∧
      Configuration.ofLayers c layers = .ok config := by
  unfold configuration
  simp only [bind_eq_ok_iff, mapError_eq_ok_iff]

end Workspace

/-! ## The command -/

namespace Command

/-- What the command `lint` asks a run to do. -/
def LintCall.request (w : Workspace) (call : LintCall) : RunRequest where
  models := call.models.map Path.ofText
  configs :=
    if call.configs.isEmpty then (w.discover (Path.ofText ".")).toList
    else call.configs.map Path.ofText
  failOn := call.failOn
  jobs := call.jobs

end Command

end ComponentLint

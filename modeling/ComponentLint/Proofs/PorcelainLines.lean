-- The lines of the plain output. Line feeds in a message become blanks, and
-- numbers and severities hold none, but the name of a file and the id of a
-- rule are written as they are. So the output, when its numbers can be
-- written, has a line for each finding and one more for each line feed in
-- these two.
import ComponentLint.Output.Lines
import ComponentLint.Proofs.CheckScope
import ComponentLint.Proofs.Directives
import ComponentLint.Proofs.DocumentFaults
import ComponentLint.Proofs.RunOutcomes
import ComponentLint.Proofs.WorkflowCommands

namespace ComponentLint

open ComponentLint.Text

/-! ## The line of a finding -/

theorem Numeral.feed_notMem_digits (n : Numeral) : '\n' ∉ n.digits.toList := by
  cases n with
  | flag b => cases b <;> decide
  | int n =>
    intro h
    rcases mem_digits_int h with hdigit | hminus
    · cases hdigit
    · cases hminus

theorem Text.feed_notMem_replaceChar (s : String) : '\n' ∉ (replaceChar '\n' " " s).toList := by
  unfold replaceChar
  rw [String.toList_ofList, List.mem_flatMap]
  rintro ⟨c, -, hc⟩
  by_cases hfeed : c = '\n'
  · rw [if_pos hfeed] at hc
    revert hc
    decide
  · rw [if_neg hfeed, List.mem_singleton] at hc
    exact hfeed hc.symm

namespace Finding

/-- What is written of a finding as it is: the name of the file and the id of the rule. -/
def rawNames (f : Finding) : List Char := f.place.file.toList ++ f.ruleId.toList

theorem feed_notMem_rawNames_iff {f : Finding} :
    '\n' ∉ f.rawNames ↔ '\n' ∉ f.place.file.toList ∧ '\n' ∉ f.ruleId.toList := by
  rw [rawNames, List.mem_append, not_or]

theorem feed_notMem_severity {f : Finding} (h : f.severity?.isSome) :
    '\n' ∉ f.severity.toList := by
  obtain ⟨s, hs⟩ := Option.isSome_iff_exists.mp h
  rw [← name_of_severity? hs]
  cases s <;> decide

/-- The line of a finding, were there no limit on the digits of a number. -/
def plainLine (f : Finding) : String :=
  ":".intercalate [f.place.file, f.place.startLine.digits, f.place.startCol.digits, f.severity,
    f.ruleId, replaceChar '\n' " " f.message]

theorem porcelainLine_eq (f : Finding) :
    Output.porcelainLine f = unlessLong f.place.isShort f.plainLine := by
  unfold Output.porcelainLine
  simp only [Numeral.toText_eq, unlessLong_bind_pure, unlessLong_bind_unlessLong]
  rfl

/-- Of what is written on the line of a finding, only the file and the rule can hold line feeds. -/
theorem count_plainLine {f : Finding} (h : f.severity?.isSome) :
    f.plainLine.toList.count '\n' = f.rawNames.count '\n' := by
  have hcolon : ":".toList.count '\n' = 0 := by decide
  have hline := List.count_eq_zero.mpr f.place.startLine.feed_notMem_digits
  have hcol := List.count_eq_zero.mpr f.place.startCol.feed_notMem_digits
  have hseverity := List.count_eq_zero.mpr (feed_notMem_severity h)
  have hmessage := List.count_eq_zero.mpr (feed_notMem_replaceChar f.message)
  unfold plainLine rawNames
  simp only [String.intercalate_cons_cons, String.intercalate_singleton, String.toList_append,
    List.count_append, hcolon, hline, hcol, hseverity, hmessage]
  omega

theorem plainLine_ne_nil (f : Finding) : f.plainLine.toList ≠ [] := by
  unfold plainLine
  simp [String.intercalate_cons_cons]

end Finding

/-! ## The lines of a result -/

namespace RunResult

variable {r : RunResult} {out : String}

theorem porcelain_eq (r : RunResult) :
    Output.porcelain r = unlessLong (r.findings.all fun f => f.place.isShort)
      ("\n".intercalate (r.findings.map Finding.plainLine)) := by
  unfold Output.porcelain
  rw [funext Finding.porcelainLine_eq, mapM_unlessLong, unlessLong_bind_pure]

theorem exists_porcelain_iff :
    (∃ out, Output.porcelain r = .ok out) ↔ ∀ f ∈ r.findings, f.place.isShort = true := by
  rw [porcelain_eq, exists_unlessLong_iff, List.all_eq_true]

section

variable (hout : Output.porcelain r = .ok out)
include hout

theorem mapM_porcelainLine :
    r.findings.mapM Output.porcelainLine = .ok (r.findings.map Finding.plainLine) := by
  refine mapM_eq_ok_map fun f hf => ?_
  rw [Finding.porcelainLine_eq, exists_porcelain_iff.mp ⟨out, hout⟩ f hf, unlessLong_true]

theorem toList_porcelain :
    out.toList = ['\n'].intercalate (r.findings.map fun f => f.plainLine.toList) := by
  have hfeed : "\n".toList = ['\n'] := rfl
  rw [porcelain_eq, unlessLong_eq_ok_iff] at hout
  rw [← hout.2, String.toList_intercalate, hfeed, List.map_map]
  rfl

theorem porcelain_eq_empty_iff : out = "" ↔ r.findings = [] := by
  rw [← String.toList_eq_nil_iff, toList_porcelain hout]
  constructor
  · intro h
    cases hfindings : r.findings with
    | nil => rfl
    | cons f fs =>
      rw [hfindings] at h
      cases fs with
      | nil => exact absurd (by simpa using h) f.plainLine_ne_nil
      | cons g fs => simp at h
  · intro h
    rw [h]
    rfl

theorem commandLines_porcelain (hne : r.findings ≠ []) :
    Output.commandLines out = (out.toList.splitOn '\n').map String.ofList := by
  unfold Output.commandLines
  exact if_neg (mt (porcelain_eq_empty_iff hout).mp hne)

theorem length_porcelain (h : ∀ f ∈ r.findings, f.severity?.isSome) :
    (Output.commandLines out).length =
      r.findings.length + (r.findings.flatMap Finding.rawNames).count '\n' := by
  by_cases hne : r.findings = []
  · rw [(porcelain_eq_empty_iff hout).mpr hne, hne]
    rfl
  · have hcounts : (r.findings.map fun f => f.plainLine.toList).flatten.count '\n' =
        (r.findings.flatMap Finding.rawNames).count '\n' := by
      have hsame : r.findings.map (List.count '\n' ∘ fun f => f.plainLine.toList) =
          r.findings.map (List.count '\n' ∘ Finding.rawNames) := by
        refine List.map_congr_left fun f hf => ?_
        rw [Function.comp_apply, Function.comp_apply, Finding.count_plainLine (h f hf)]
      rw [List.count_flatten, List.count_flatMap, List.map_map, hsame]
    have hjoined := count_intercalate '\n'
      (r.findings.map fun f => f.plainLine.toList) (by simpa using hne)
    rw [hcounts, List.length_map] at hjoined
    rw [commandLines_porcelain hout hne, List.length_map, length_splitOn, toList_porcelain hout,
      hjoined, Nat.add_comm]

/-- The lines are those of the findings exactly when no line feed is there but those in between. -/
theorem porcelain_lines_iff (h : ∀ f ∈ r.findings, f.severity?.isSome) :
    r.findings.mapM Output.porcelainLine = .ok (Output.commandLines out) ↔
      ∀ f ∈ r.findings, '\n' ∉ f.rawNames := by
  rw [mapM_porcelainLine hout, Except.ok.injEq]
  constructor
  · intro hlines f hf hfeed
    have hlength := length_porcelain hout h
    rw [← hlines, List.length_map] at hlength
    have hnone : (r.findings.flatMap Finding.rawNames).count '\n' = 0 := by omega
    exact List.count_eq_zero.mp hnone (List.mem_flatMap.mpr ⟨f, hf, hfeed⟩)
  · intro hnone
    by_cases hne : r.findings = []
    · rw [(porcelain_eq_empty_iff hout).mpr hne, hne]
      rfl
    · rw [commandLines_porcelain hout hne, toList_porcelain hout, List.splitOn_intercalate]
      · simp [Function.comp_def]
      · intro piece hpiece
        obtain ⟨f, hf, rfl⟩ := List.mem_map.mp hpiece
        rw [← List.count_eq_zero, Finding.count_plainLine (h f hf), List.count_eq_zero]
        exact hnone f hf
      · simpa using hne

end

end RunResult

/-! ## The findings of units that were read -/

theorem Document.file_of_mem_readSuppressions {file origin : String} {v : Value}
    {declared : List Suppression} (h : readSuppressions file origin v = .ok declared) :
    ∀ s ∈ declared, s.file = file := by
  unfold readSuppressions at h
  split at h
  · cases h
    simp
  · intro s hs
    rw [readSuppressionsFrom_eq] at h
    obtain ⟨e, -, hread⟩ := (mem_mapM_iff h).mp hs
    unfold readSuppression at hread
    split at hread
    · split at hread
      · split at hread
        · obtain ⟨column, -, hs⟩ := bind_eq_ok_iff.mp hread
          cases hs
          rfl
        · cases hread
      · cases hread
    · cases hread
  · cases h

/-- The suppressions of a unit that is read from a document are all of its file. -/
theorem Model.file_of_mem_suppressions {origin : String} {v : Value} {m : Model}
    (h : Model.ofDocument origin v = .ok m) : ∀ s ∈ m.suppressions, s.file = m.file := by
  obtain ⟨file, lines, drafts, declared, forest, hreads, -, rfl⟩ := Model.ofDocument_eq_ok_iff.mp h
  intro s hs
  rw [Model.ofForest, List.mem_append] at hs
  rcases hs with hs | hs
  · rw [Suppression.ofLines, Suppression.mem_ofLinesFrom] at hs
    obtain ⟨i, line, d, -, -, hs⟩ := hs
    obtain ⟨id, -, rfl⟩ := List.mem_map.mp hs
    rfl
  · exact Document.file_of_mem_readSuppressions hreads.declared_eq s hs

/-- A finding that the rules of a run report on a unit that was read from a document. -/
structure Finding.ReportedOn (f : Finding) (m : Model) (rs : ActiveRules) : Prop where
  read : ∃ origin v, Model.ofDocument origin v = .ok m
  reported : ∃ report, Report.ofModel m rs = .ok report ∧ f ∈ report.findings

namespace Finding.ReportedOn

variable {f : Finding} {m : Model} {rs : ActiveRules}

theorem severity (h : f.ReportedOn m rs) : f.severity?.isSome := by
  obtain ⟨report, hreport, hf⟩ := h.reported
  exact Report.ranked_of_ofModel hreport f hf

/-- What the standard rules report on a unit is in its file, and their ids are single lines. -/
theorem feed_notMem_of_standard (h : f.ReportedOn m rs) {config : Configuration}
    (hrs : Catalog.standard.resolve config = .ok rs) (hfile : '\n' ∉ m.file.toList) :
    '\n' ∉ f.rawNames := by
  have hids : (standardRules.all fun d => !d.id.toList.contains '\n') = true := by decide
  obtain ⟨origin, v, hm⟩ := h.read
  obtain ⟨report, hreport, hf⟩ := h.reported
  obtain ⟨hindexed, hrules⟩ := Catalog.of_resolve hrs
  have hplain : '\n' ∉ f.ruleId.toList ∧ f.place.file = m.file := by
    obtain ⟨analysis, hanalysis, haggregate⟩ := Report.ofModel_eq_ok_iff.mp hreport
    obtain ⟨-, hsort, -⟩ := Report.aggregate_eq_ok_iff.mp haggregate
    rw [((Analysis.ofModel_eq_ok_iff hindexed).mp hanalysis).1] at hsort
    obtain ⟨-, hfindings⟩ := Finding.sort_eq_ok_iff.mp hsort
    rw [hfindings, (List.mergeSort_perm _ _).mem_iff, Report.listing, List.mem_append] at hf
    rcases hf with hf | hf
    · have hfound := Report.firstOccurrences_subset (List.mem_of_mem_filter hf)
      obtain ⟨r, hr, hid, -⟩ := Survey.rule_of_mem_findings hfound
      have hstandard := (hrules r hr).1
      refine ⟨?_, Survey.file_of_mem_findings (fun q hq => (hrules q hq).1)
        (Model.accepted_of_ofDocument hm) hfound⟩
      have hid' := List.all_eq_true.mp hids _ hstandard
      rw [hid, ActiveRule.id]
      simpa using hid'
    · obtain ⟨severity, s, why, -, hs, rfl⟩ := Report.of_mem_idleNotes hf
      refine ⟨?_, Model.file_of_mem_suppressions hm s (List.mem_of_mem_filter hs)⟩
      change '\n' ∉ unusedSuppression.toList
      decide
  rw [← hplain.2] at hfile
  exact Finding.feed_notMem_rawNames_iff.mpr ⟨hfile, hplain.1⟩

end Finding.ReportedOn

/-- A run over units that were read from documents has a plain output unless the line or the column
of a finding is too long to be written. The output is empty when there are no findings, and
otherwise has a line for each finding, and one more for each line feed in the name of a file or the
id of a rule. So its lines are those of the findings, in report order, exactly when these names are
single lines, and with the standard rules when the names of the files are. -/
theorem porcelain_breaks_only_at_files_and_rules (r : RunResult)
    (h : ∀ f ∈ r.findings, ∃ m rs, f.ReportedOn m rs) :
    ((∃ out, Output.porcelain r = .ok out) ↔ ∀ f ∈ r.findings, f.place.isShort = true) ∧
    ∀ out, Output.porcelain r = .ok out →
      (out = "" ↔ r.findings = []) ∧
      (Output.commandLines out).length =
        r.findings.length + (r.findings.flatMap Finding.rawNames).count '\n' ∧
      (r.findings.mapM Output.porcelainLine = .ok (Output.commandLines out) ↔
        ∀ f ∈ r.findings, '\n' ∉ f.place.file.toList ∧ '\n' ∉ f.ruleId.toList) ∧
      ((∀ f ∈ r.findings, ∃ m config rs, Catalog.standard.resolve config = .ok rs ∧
          f.ReportedOn m rs ∧ '\n' ∉ m.file.toList) →
        r.findings.mapM Output.porcelainLine = .ok (Output.commandLines out)) := by
  have hranked : ∀ f ∈ r.findings, f.severity?.isSome := by
    intro f hf
    obtain ⟨m, rs, hreported⟩ := h f hf
    exact hreported.severity
  refine ⟨RunResult.exists_porcelain_iff, fun out hout => ?_⟩
  have hlines := RunResult.porcelain_lines_iff hout hranked
  refine ⟨RunResult.porcelain_eq_empty_iff hout, RunResult.length_porcelain hout hranked, ?_, ?_⟩
  · rw [hlines]
    exact forall₂_congr fun f _ => Finding.feed_notMem_rawNames_iff
  · intro hstandard
    rw [hlines]
    intro f hf
    obtain ⟨m, config, rs, hrs, hreported, hfile⟩ := hstandard f hf
    exact hreported.feed_notMem_of_standard hrs hfile

/-! ## A note on two lines -/

/-- The suppression of a rule whose name has a line feed in it. -/
def twoLineSuppression (file : String) : Suppression :=
  ⟨file, "x\ny", .int 1, .int 1, .int 1⟩

/-- A document that declares the suppression, and has no nodes. -/
def twoLineDocument (file : String) : Value :=
  .map [(.str "file", .str file), (.str "suppressions", .list
    [.map [(.str "rule", .str "x\ny"), (.str "line", .int 1)]])]

/-- A run of the rule about unused suppressions alone. -/
def notesOnly : ActiveRules := ⟨[⟨standardRules.get ⟨8, by decide⟩, "info", []⟩], [], []⟩

/-- What is said about the suppression. -/
def twoLineNote (file : String) : Finding :=
  Report.idleNote "info" (twoLineSuppression file) .unknownRule

theorem twoLineNote_reported (file : String) (hfile : allBlank file.toList = false) :
    ∃ m, (twoLineNote file).ReportedOn m notesOnly := by
  let m : Model := .ofForest file [] [] [twoLineSuppression file]
  have hread : Model.ofDocument "note" (twoLineDocument file) = .ok m := by
    have hname : Document.readFile? (twoLineDocument file) = some file := by
      simp [Document.readFile?, twoLineDocument, Value.field, Value.field?, Value.unfold,
        Value.entry?, Value.text?, Option.filter_some, hfile]
    exact Model.ofDocument_eq_ok_iff.mpr ⟨file, [], [], [twoLineSuppression file], [],
      ⟨⟨_, rfl⟩, hname, rfl, ⟨_, rfl, rfl⟩, rfl⟩, rfl, rfl⟩
  have hanalysis : Analysis.ofModel m notesOnly = .ok {} := by
    have hroots : m.roots = [] := rfl
    unfold Analysis.ofModel
    rw [hroots, List.map_nil, Analysis.run]
  refine ⟨m, ⟨"note", _, hread⟩, ⟨[twoLineNote file], []⟩, ?_, List.mem_singleton_self _⟩
  refine Report.ofModel_eq_ok_iff.mpr ⟨_, hanalysis, ?_⟩
  rw [Report.aggregate_eq_ok_iff, Finding.sort_eq_ok_iff]
  have hlisting : Report.listing [] m.suppressions (some notesOnly) = [twoLineNote file] := rfl
  refine ⟨rfl, ⟨?_, ?_⟩, rfl⟩
  · rw [hlisting]
    intro f hf
    cases List.mem_singleton.mp hf
    rfl
  · rw [hlisting, List.mergeSort_singleton]

/-- A run whose only finding is the note. -/
def noteResult (file : String) : RunResult where
  report := { findings := [twoLineNote file] }

theorem reportedOn_noteResult {file : String} (hfile : allBlank file.toList = false) :
    ∀ f ∈ (noteResult file).findings, ∃ m rs, f.ReportedOn m rs := by
  intro f hf
  cases List.mem_singleton.mp hf
  obtain ⟨m, hm⟩ := twoLineNote_reported file hfile
  exact ⟨m, notesOnly, hm⟩

theorem isShort_noteResult (file : String) :
    ∀ f ∈ (noteResult file).findings, f.place.isShort = true := by
  have hone : Number.isShort 1 = true := Number.isShort_of_natAbs_lt (by decide)
  intro f hf
  cases List.mem_singleton.mp hf
  exact Bool.and_eq_true_iff.mpr ⟨hone, hone⟩

theorem noteResult_is_one_line :
    ∃ out, Output.porcelain (noteResult "A") = .ok out ∧
      Output.commandLines out = ["A:1:1:info:unused-suppression:"
        ++ "Suppression names unknown rule 'x y' and silences nothing"] := by
  obtain ⟨hwritten, hlines⟩ := porcelain_breaks_only_at_files_and_rules (noteResult "A")
    (reportedOn_noteResult (by decide))
  obtain ⟨out, hout⟩ := hwritten.mpr (isShort_noteResult "A")
  refine ⟨out, hout, ?_⟩
  have hline := (hlines out hout).2.2.1.mpr (by decide)
  rw [RunResult.mapM_porcelainLine hout] at hline
  rw [← Except.ok.inj hline]
  decide

-- The name of a file is written as it is, also when it has a line feed in it.
theorem file_names_break_lines :
    ¬ ∀ r : RunResult, (∀ f ∈ r.findings, ∃ m rs, f.ReportedOn m rs) →
      ∀ out, Output.porcelain r = .ok out →
        r.findings.mapM Output.porcelainLine = .ok (Output.commandLines out) := by
  intro h
  obtain ⟨out, hout⟩ := RunResult.exists_porcelain_iff.mpr (isShort_noteResult "A\nB")
  have hlines := h (noteResult "A\nB") (reportedOn_noteResult (by decide)) out hout
  have hranked : ∀ f ∈ (noteResult "A\nB").findings, f.severity?.isSome := by decide
  exact absurd ((RunResult.porcelain_lines_iff hout hranked).mp hlines) (by decide)

end ComponentLint

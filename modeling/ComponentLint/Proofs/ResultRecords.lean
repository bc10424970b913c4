-- Results as JSON texts. A text tells what was found, what failed, what was
-- skipped and how it all adds up; nothing of it is lost, since the text stands
-- for one tree only. There is a text when all findings are ranked and all
-- integers of the tree can be written.
import ComponentLint.Output.Record
import ComponentLint.Proofs.JsonTexts
import ComponentLint.Proofs.ReportMerge
import ComponentLint.Proofs.WorkflowCommands

namespace ComponentLint

/-! ## Counting -/

namespace Report

/-- How many findings are of a severity. -/
def tally (r : Report) (level : Severity) : Nat :=
  r.findings.countP fun f => f.severity == level.name

/-- The gravest severity that findings are of. -/
def gravest (r : Report) : Option Severity :=
  if r.tally .error ≠ 0 then some .error
  else if r.tally .warning ≠ 0 then some .warning
  else if r.tally .info ≠ 0 then some .info
  else none

theorem severity?_eq_some_iff {f : Finding} {level : Severity} :
    f.severity? = some level ↔ f.severity = level.name := by
  constructor
  · intro h
    exact (Finding.name_of_severity? h).symm
  · intro h
    rw [Finding.severity?, h, Severity.ofName?_name]

theorem count_severity? (fs : List Finding) (level : Severity) :
    (fs.filterMap Finding.severity?).count level =
      fs.countP fun f => f.severity == level.name := by
  rw [List.count, List.countP_filterMap]
  refine List.countP_congr fun f _ => ?_
  rw [beq_iff_eq, ← severity?_eq_some_iff]
  cases f.severity? with
  | none => simp
  | some s => simp

section

variable {r : Report} (h : r.Ranked)
include h

theorem counts_of_ranked :
    r.counts = .ok (levels.map fun level => (level, r.tally level)) := by
  unfold counts
  rw [severities_of_ranked h]
  change Except.ok _ = Except.ok _
  simp only [count_severity?]
  rfl

theorem highest?_of_ranked : r.highest? = .ok r.gravest := by
  have hfound : ∀ level, (r.findings.filterMap Finding.severity?).contains level =
      decide (r.tally level ≠ 0) := by
    intro level
    rw [Bool.eq_iff_iff, List.contains_iff_mem, decide_eq_true_iff, tally, ← count_severity?,
      ← Nat.pos_iff_ne_zero, List.count_pos_iff]
  unfold highest?
  rw [severities_of_ranked h]
  change Except.ok _ = Except.ok _
  simp only [hfound, levels, gravest, List.find?_cons, List.find?_nil]
  grind

/-- The findings of the three severities are all findings. -/
theorem tally_sum : r.tally .error + r.tally .warning + r.tally .info = r.findings.length := by
  obtain ⟨fs, errors⟩ := r
  unfold tally
  dsimp only [Ranked] at h ⊢
  induction fs with
  | nil => rfl
  | cons f fs ih =>
    obtain ⟨hf, hfs⟩ := List.forall_mem_cons.mp h
    obtain ⟨s, hs⟩ := Option.isSome_iff_exists.mp hf
    have hrest := ih hfs
    rw [severity?_eq_some_iff] at hs
    have hnames : ∀ level : Severity, (s.name == level.name) = decide (s = level) := by
      intro level
      cases s <;> cases level <;> decide
    simp only [List.countP_cons, List.length_cons, hs, hnames]
    cases s <;> simp <;> omega

end

theorem ranked_of_counts {r : Report} {counted : List (Severity × Nat)}
    (h : r.counts = .ok counted) : r.Ranked := by
  obtain ⟨found, hfound, -⟩ := bind_eq_ok_iff.mp h
  intro f hf
  obtain ⟨s, hs⟩ := exists_mapM_iff.mp ⟨found, hfound⟩ f hf
  unfold Finding.severity?
  unfold Severity.ofName at hs
  cases hname : Severity.ofName? f.severity with
  | none => simp [hname] at hs
  | some s => rfl

end Report

namespace Output

open ComponentLint.Number Json

/-! ## What the parts of a record tell -/

theorem eq_of_alike_numeralJson {n n' : Numeral} (h : Alike (numeralJson n) (numeralJson n')) :
    n = n' := by
  cases n with
  | int n =>
    cases n' with
    | int n' => exact congrArg Numeral.int h
    | flag b' => cases h
  | flag b =>
    cases n' with
    | int n' => cases h
    | flag b' => exact congrArg Numeral.flag h

theorem eq_of_alike_optionalJson {s s' : Option String}
    (h : Alike (optionalJson s) (optionalJson s')) : s = s' := by
  cases s with
  | none =>
    cases s' with
    | none => rfl
    | some s' => cases h
  | some s =>
    cases s' with
    | none => cases h
    | some s' => exact congrArg some h

theorem eq_of_alike_findingJson {f f' : Finding} (h : Alike (findingJson f) (findingJson f')) :
    f = f' := by
  obtain ⟨ruleId, severity, ⟨file, startLine, startCol, endLine, endCol⟩, message, suggestion⟩ := f
  simp only [findingJson, Alike, MembersAlike, true_and, and_true] at h
  obtain ⟨rfl, rfl, rfl, hstartLine, hstartCol, hendLine, hendCol, rfl, hsuggestion⟩ := h
  cases eq_of_alike_numeralJson hstartLine
  cases eq_of_alike_numeralJson hstartCol
  cases eq_of_alike_numeralJson hendLine
  cases eq_of_alike_numeralJson hendCol
  cases eq_of_alike_optionalJson hsuggestion
  rfl

/-- What a record holds of the failure of a rule. -/
def recorded (e : RuleError) : String × String × Numeral × Numeral × String :=
  (e.ruleId, e.place.file, e.place.startLine, e.place.startCol, e.message)

theorem recorded_eq_of_alike {e e' : RuleError} (h : Alike (errorJson e) (errorJson e')) :
    recorded e = recorded e' := by
  simp only [errorJson, Alike, MembersAlike, true_and, and_true] at h
  obtain ⟨hrule, hfile, hline, hcol, hmessage⟩ := h
  simp only [recorded, hrule, hfile, eq_of_alike_numeralJson hline, eq_of_alike_numeralJson hcol,
    hmessage]

theorem eq_of_alike_skippedJson {s s' : SkippedUnit} (h : Alike (skippedJson s) (skippedJson s')) :
    s = s' := by
  obtain ⟨path, reason⟩ := s
  simp only [skippedJson, Alike, MembersAlike, true_and, and_true] at h
  obtain ⟨rfl, rfl⟩ := h
  rfl

/-- Arrays of records tell what each of the records does. -/
theorem map_eq_of_itemsAlike {α β : Type} {toJson : α → Json} (told : α → β)
    (htold : ∀ {a b}, Alike (toJson a) (toJson b) → told a = told b) {items items' : List α}
    (h : ItemsAlike (items.map toJson) (items'.map toJson)) :
    items.map told = items'.map told := by
  induction items generalizing items' with
  | nil =>
    cases items' with
    | nil => rfl
    | cons b items' => cases h
  | cons a items ih =>
    cases items' with
    | nil => cases h
    | cons b items' =>
      obtain ⟨hab, hrest⟩ := h
      rw [List.map_cons, List.map_cons, htold hab, ih hrest]

/-! ## The record as a whole -/

variable {r r' : RunResult}

/-- The summary of a result whose findings are all ranked. -/
def summaryJson (r : RunResult) : Json :=
  .obj
    [("counts", .obj
      [("error", .int (r.report.tally .error)), ("warning", .int (r.report.tally .warning)),
        ("info", .int (r.report.tally .info))]),
     ("findings_count",
      .int (r.report.tally .error + r.report.tally .warning + r.report.tally .info : Nat)),
     ("highest_severity", optionalJson (r.report.gravest.map Severity.name)),
     ("fail_on", .str r.failOn), ("units_analyzed", .int r.unitsAnalyzed),
     ("rules_evaluated", .int r.rulesEvaluated), ("elapsed_ms", .float r.elapsedMs)]

/-- The lists of a record. -/
def listsJson (r : RunResult) : List (String × Json) :=
  [("findings", .arr (r.findings.map findingJson)),
   ("errors", .arr (r.report.errors.map errorJson)),
   ("skipped", .arr (r.skipped.map skippedJson)),
   ("config_errors", .arr (r.configErrors.map fun e => .str e.toText))]

/-- The tree of a result whose findings are all ranked. -/
def treeJson (r : RunResult) : Json := .obj (listsJson r ++ [("summary", summaryJson r)])

theorem resultJson_of_ranked (h : r.report.Ranked) : resultJson r = .ok (treeJson r) := by
  unfold resultJson treeJson
  rw [Report.counts_of_ranked h, Report.highest?_of_ranked h, summaryJson, Report.tally_sum h]
  rfl

theorem ranked_of_resultJson {tree : Json} (h : resultJson r = .ok tree) : r.report.Ranked := by
  obtain ⟨counted, hcounted, -⟩ := bind_eq_ok_iff.mp h
  exact Report.ranked_of_counts hcounted

theorem record_of_ranked (h : r.report.Ranked) :
    record r = Stop.writing (unlessLong (treeJson r).writable ((treeJson r).rendered 0)) := by
  unfold record
  rw [resultJson_of_ranked h, ← Json.pretty_eq]
  rfl

theorem record_of_not_ranked (h : ¬ r.report.Ranked) : ∃ u, record r = .error (.refused u) := by
  unfold record
  cases htree : resultJson r with
  | ok tree => exact absurd (ranked_of_resultJson htree) h
  | error u => exact ⟨u, rfl⟩

theorem ranked_of_record {text : String} (h : record r = .ok text) : r.report.Ranked := by
  by_contra hranked
  obtain ⟨u, hrefused⟩ := record_of_not_ranked hranked
  cases hrefused.symm.trans h

theorem pretty_of_record {text : String} (h : record r = .ok text) :
    (treeJson r).pretty 0 = .ok text := by
  rw [record_of_ranked (ranked_of_record h), Stop.writing_eq_ok_iff, ← Json.pretty_eq] at h
  exact h

/-- A result is refused exactly when one of its findings is not ranked, and otherwise has a text
unless an integer in it is too long to be written. Two results that have one record have the same
findings, the same failures as far as a record holds them, the same skipped units, the same texts of
faults in the configuration, the same threshold and the same numbers of units and rules, and their
times are spelled alike. In a record, the counts of the three severities add up to the number of
findings, and the highest severity is the gravest whose count is not zero. -/
theorem records_lose_nothing (r : RunResult) :
    ((∃ u, record r = .error (.refused u)) ↔ ¬ r.report.Ranked) ∧
    (r.report.Ranked → ((∃ text, record r = .ok text) ↔ (treeJson r).writable = true)) ∧
    ∀ text, record r = .ok text →
      (∀ r' : RunResult, record r' = .ok text →
        r.findings = r'.findings ∧
        r.report.errors.map recorded = r'.report.errors.map recorded ∧
        r.skipped = r'.skipped ∧
        r.configErrors.map ConfigError.toText = r'.configErrors.map ConfigError.toText ∧
        r.failOn = r'.failOn ∧ r.unitsAnalyzed = r'.unitsAnalyzed ∧
        r.rulesEvaluated = r'.rulesEvaluated ∧
        Json.floatText r.elapsedMs = Json.floatText r'.elapsedMs) ∧
      ∃ (lists others : List (String × Json)) (errors warnings infos : Nat)
        (highest : Option Severity),
        (Json.obj (lists ++ [("summary", .obj (
          [("counts", .obj
            [("error", .int errors), ("warning", .int warnings), ("info", .int infos)]),
           ("findings_count", .int (errors + warnings + infos : Nat)),
           ("highest_severity", optionalJson (highest.map Severity.name))] ++ others))])).pretty 0 =
          .ok text ∧
        lists.map Prod.fst = ["findings", "errors", "skipped", "config_errors"] ∧
        errors = r.report.tally .error ∧ warnings = r.report.tally .warning ∧
        infos = r.report.tally .info ∧ errors + warnings + infos = r.findings.length ∧
        highest = (if errors ≠ 0 then some .error else if warnings ≠ 0 then some .warning
          else if infos ≠ 0 then some .info else none) := by
  refine ⟨⟨?_, record_of_not_ranked⟩, fun hranked => ?_, fun text h => ⟨fun r' h' => ?_, ?_⟩⟩
  · rintro ⟨u, h⟩ hranked
    rw [record_of_ranked hranked] at h
    obtain ⟨_, -, hcause⟩ := mapError_eq_error_iff.mp h
    cases hcause
  · simp only [record_of_ranked hranked, Stop.writing_eq_ok_iff, exists_unlessLong_iff]
  · have halike := alike_of_pretty (pretty_of_record h) (pretty_of_record h')
    simp only [treeJson, listsJson, summaryJson, List.cons_append, List.nil_append, Alike,
      MembersAlike, true_and, and_true] at halike
    obtain ⟨hfindings, herrors, hskipped, hconfig, -, -, -, hfail, hunits, hrules, htime⟩ := halike
    refine ⟨?_, map_eq_of_itemsAlike recorded recorded_eq_of_alike herrors, ?_, ?_, hfail,
      by omega, by omega, htime⟩
    · simpa using map_eq_of_itemsAlike id eq_of_alike_findingJson hfindings
    · simpa using map_eq_of_itemsAlike id eq_of_alike_skippedJson hskipped
    · have htext : ∀ {e e' : ConfigError}, Alike (.str e.toText) (.str e'.toText) →
          e.toText = e'.toText := fun h => h
      exact map_eq_of_itemsAlike ConfigError.toText htext hconfig
  · exact ⟨_, _, _, _, _, _, pretty_of_record h, rfl, rfl, rfl, rfl,
      Report.tally_sum (ranked_of_record h), rfl⟩

/-- A result with a finding that comes with a suggestion, which may be empty. -/
def hintResult (suggestion : Option String) : RunResult :=
  let place : Place := ⟨"view.tsx", .int 1, .int 1, .int 2, .int 9⟩
  { report := { findings := [⟨"line-limit", "info", place, "long", suggestion⟩] }
    unitsAnalyzed := 1 }

theorem ranked_hintResult (suggestion : Option String) :
    (hintResult suggestion).report.Ranked := by
  intro f hf
  rw [List.mem_singleton.mp hf]
  rfl

theorem writable_optionalJson (s : Option String) : (optionalJson s).writable = true := by
  cases s <;> rfl

theorem writable_hintResult : (treeJson (hintResult none)).writable = true := by
  have hdigit : ∀ n : Int, n.natAbs < 10 → isShort n = true :=
    fun n hn => isShort_of_natAbs_lt (by omega)
  simp only [treeJson, listsJson, summaryJson, hintResult, RunResult.findings, List.map_cons,
    List.map_nil, findingJson, numeralJson, List.cons_append, List.nil_append, writable,
    writableItems, writableMembers, writable_optionalJson, Bool.and_true, Bool.true_and,
    Bool.and_eq_true]
  and_intros <;> exact hdigit _ (by decide)

/-- A suggestion that is absent does not look like an empty one. Whether a run was cancelled does
not show. -/
theorem hintResult_is_told_by_its_record :
    record (hintResult none) ≠ record (hintResult (some "")) ∧
    ∃ text, record (hintResult none) = .ok text ∧
      record { hintResult none with cancelled := true } = .ok text := by
  obtain ⟨-, hwritten, htold⟩ := records_lose_nothing (hintResult none)
  obtain ⟨text, htext⟩ := (hwritten (ranked_hintResult none)).mpr writable_hintResult
  refine ⟨fun hsame => ?_, text, htext, htext⟩
  have hfindings := ((htold text htext).1 _ (hsame ▸ htext)).1
  exact absurd hfindings (by decide)

end Output

end ComponentLint

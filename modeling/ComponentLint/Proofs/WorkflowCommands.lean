-- Workflow commands can be read back. Whatever a file is called and a rule
-- has to say, every finding and every failure of a rule is one line of the
-- output, and a reader that knows nothing but the format gets from that line
-- what was put into it. There is an output unless a finding is at a line or a
-- column that cannot be written.
import ComponentLint.Output.Lines
import ComponentLint.Proofs.CommandText
import ComponentLint.Proofs.ReportMerge
import ComponentLint.Proofs.WrittenIntegers

namespace ComponentLint

open ComponentLint.Number ComponentLint.Text

/-! ## Annotations -/

namespace Output

/-- What a line of the output tells about a source. -/
inductive Annotation where
  | finding (severity file : String) (line column : Numeral) (endLine : Int) (ruleId body : String)
  | failure (file : String) (line : Numeral) (text : String)
  deriving DecidableEq

/-- The severity that a command stands for. -/
def severityOfLevel? (level : String) : Option Severity :=
  [("error", .error), ("warning", .warning), ("notice", .info)].lookup level

/-- What a command tells. A finding has a column, the failure of a rule has none, and what does not
name its last line ends on its first one. -/
def Command.annotation? (c : Command) : Option Annotation := do
  let file ← c.properties.lookup "file"
  let line ← (c.properties.lookup "line").bind Numeral.read?
  match c.properties.lookup "col" with
  | none => return .failure file line c.text
  | some col =>
    let severity ← severityOfLevel? c.name
    let column ← Numeral.read? col
    let ruleId ← c.properties.lookup "title"
    let endLine ← match c.properties.lookup "endLine" with
      | none => some line.value
      | some text => (Numeral.read? text).map Numeral.value
    return .finding severity.name file line column endLine ruleId c.text

/-- The annotation on a line of the output. -/
def readAnnotation? (line : String) : Option Annotation :=
  (Command.read? line).bind Command.annotation?

/-- The lines of an output. -/
def commandLines (out : String) : List String :=
  if out = "" then [] else (out.toList.splitOn '\n').map String.ofList

end Output

namespace Finding

/-- What is to be told of a finding. -/
def annotation (f : Finding) : Output.Annotation :=
  .finding f.severity f.place.file f.place.startLine f.place.startCol f.place.endLine.value f.ruleId
    ((f.suggestion.filter (· != "")).elim f.message fun s => f.message ++ "\n" ++ s)

/-- The command of a finding. -/
def command (f : Finding) : Output.Command where
  name := (f.severity?.map Output.workflowLevel).getD ""
  properties :=
    [("file", f.place.file), ("line", f.place.startLine.digits), ("col", f.place.startCol.digits)]
      ++ (if f.place.endLine.value = f.place.startLine.value then []
        else [("endLine", f.place.endLine.digits)])
      ++ [("title", f.ruleId)]
  text := Output.workflowBody f

/-- Whether the lines and the column that a command names can be written. -/
def isShort (f : Finding) : Bool := f.place.isShort && f.place.endLine.isShort

/-- A last line that is not told is as short as the first one. -/
theorem workflowEnd_eq {p : Place} (h : p.startLine.isShort = true) :
    Output.workflowEnd p = unlessLong p.endLine.isShort
      (if p.endLine.value = p.startLine.value then [] else ["endLine=" ++ p.endLine.digits]) := by
  unfold Output.workflowEnd
  by_cases hline : p.endLine.value = p.startLine.value
  · rw [if_pos hline, if_pos hline, Numeral.isShort_eq, hline, ← Numeral.isShort_eq, h]
    rfl
  · rw [if_neg hline, if_neg hline, Numeral.toText_eq, unlessLong_bind_pure]

theorem workflowProperties_eq (f : Finding) : Output.workflowProperties f =
    unlessLong f.isShort (f.command.properties.map Output.Command.writeProperty) := by
  have hproperties : f.command.properties.map Output.Command.writeProperty =
      ["file=" ++ Output.escapeProperty f.place.file, "line=" ++ f.place.startLine.digits,
        "col=" ++ f.place.startCol.digits]
      ++ (if f.place.endLine.value = f.place.startLine.value then []
        else ["endLine=" ++ f.place.endLine.digits])
      ++ ["title=" ++ Output.escapeProperty f.ruleId] := by
    simp only [command, List.map_append, List.map_cons, List.map_nil,
      Output.Command.writeProperty, Numeral.escapeProperty_digits]
    split <;> simp [Output.Command.writeProperty, Numeral.escapeProperty_digits]
  rw [hproperties]
  unfold Output.workflowProperties isShort Place.isShort
  rw [Numeral.toText_eq, Numeral.toText_eq]
  by_cases hline : f.place.startLine.isShort = true
  · rw [workflowEnd_eq hline, hline, Bool.true_and, unlessLong_true]
    simp only [unlessLong_bind_pure, unlessLong_bind_unlessLong]
    rfl
  · rw [Bool.not_eq_true] at hline
    rw [hline]
    rfl

theorem workflowFinding_eq {f : Finding} (h : f.severity?.isSome) :
    Output.workflowFinding f = Stop.writing (unlessLong f.isShort f.command.write) := by
  obtain ⟨s, hs⟩ := Option.isSome_iff_exists.mp h
  have hname : f.command.name = Output.workflowLevel s := by simp [command, hs]
  unfold Output.workflowFinding Output.Command.write
  rw [Report.ofName_of_severity? hs, hname, workflowProperties_eq]
  cases f.isShort <;> rfl

theorem wellFormed_command (f : Finding) : f.command.WellFormed := by
  refine ⟨?_, by simp [command], ?_⟩
  · cases hs : f.severity? with
    | none => simp [command, hs]
    | some s => cases s <;> simp [command, hs, Output.workflowLevel]
  · simp only [command]
    split <;> simp

theorem body_eq (f : Finding) : Output.workflowBody f =
    (f.suggestion.filter (· != "")).elim f.message fun s => f.message ++ "\n" ++ s := by
  unfold Output.workflowBody
  cases f.suggestion with
  | none => rfl
  | some s =>
    by_cases hs : s = ""
    · simp [hs, Option.filter_some]
    · simp [hs, Option.filter_some]

theorem name_of_severity? {f : Finding} {s : Severity} (h : f.severity? = some s) :
    s.name = f.severity := by
  have hfound := List.find?_some h
  simpa using hfound

theorem annotation?_command {f : Finding} (h : f.severity?.isSome) :
    f.command.annotation? = some f.annotation := by
  obtain ⟨s, hs⟩ := Option.isSome_iff_exists.mp h
  have hlevel : Output.severityOfLevel? (Output.workflowLevel s) = some s := by cases s <;> rfl
  unfold Output.Command.annotation? annotation
  rw [← name_of_severity? hs, ← body_eq]
  by_cases hline : f.place.endLine.value = f.place.startLine.value
  · simp [command, hline, hs, hlevel, List.lookup_cons, Numeral.read?_digits]
  · simp [command, hline, hs, hlevel, List.lookup_cons, Numeral.read?_digits]

end Finding

namespace RuleError

/-- What is to be told of the failure of a rule. -/
def annotation (e : RuleError) : Output.Annotation :=
  .failure e.place.file e.place.startLine e.message

/-- The command of a failure. -/
def command (e : RuleError) : Output.Command where
  name := "error"
  properties :=
    [("file", e.place.file), ("line", e.place.startLine.digits), ("title", "rule-error")]
  text := e.message

/-- A failure that is told in words is at a line that can be written, since the words begin with
it. -/
theorem isShort_startLine (e : RuleError) : e.place.startLine.isShort = true := by
  obtain ⟨text, htext, -⟩ := bind_eq_ok_iff.mp e.worded
  rw [Place.toText_eq, unlessLong_eq_ok_iff, Place.isShort, Bool.and_eq_true] at htext
  exact htext.1.1

theorem workflowError_eq (e : RuleError) : Output.workflowError e = .ok e.command.write := by
  have htitle : Output.escapeProperty "rule-error" = "rule-error" := rfl
  have hstart : "::error file=" = "::" ++ "error" ++ " " ++ "file" ++ "=" := rfl
  have hline : ",line=" = "," ++ "line" ++ "=" := rfl
  have hend : ",title=rule-error::" = "," ++ "title" ++ "=" ++ "rule-error" ++ "::" := rfl
  unfold Output.workflowError Output.Command.write command
  rw [Numeral.toText_eq, e.isShort_startLine, unlessLong_true, hstart, hline, hend]
  refine congrArg Except.ok ?_
  simp only [List.map_cons, List.map_nil, Output.Command.writeProperty,
    Numeral.escapeProperty_digits, htitle, String.intercalate_cons_cons,
    String.intercalate_singleton, String.append_assoc]

theorem wellFormed_command (e : RuleError) : e.command.WellFormed := by
  refine ⟨?_, by simp [command], ?_⟩
  · simp [command]
  · simp [command]

theorem annotation?_command (e : RuleError) : e.command.annotation? = some e.annotation := by
  simp [Output.Command.annotation?, command, annotation, List.lookup_cons, Numeral.read?_digits]

end RuleError

namespace RunResult

/-- What is to be told of a run: its findings, then the failures of its rules. -/
def annotations (r : RunResult) : List Output.Annotation :=
  r.findings.map Finding.annotation ++ r.report.errors.map RuleError.annotation

/-- The commands of a run. -/
def commands (r : RunResult) : List Output.Command :=
  r.findings.map Finding.command ++ r.report.errors.map RuleError.command

theorem wellFormed_of_mem_commands {r : RunResult} {c : Output.Command} (h : c ∈ r.commands) :
    c.WellFormed := by
  rcases List.mem_append.mp h with h | h
  · obtain ⟨f, -, rfl⟩ := List.mem_map.mp h
    exact f.wellFormed_command
  · obtain ⟨e, -, rfl⟩ := List.mem_map.mp h
    exact e.wellFormed_command

theorem annotations_eq {r : RunResult} (h : ∀ f ∈ r.findings, f.severity?.isSome) :
    r.commands.map Output.Command.annotation? = r.annotations.map some := by
  unfold commands annotations
  rw [List.map_append, List.map_append, List.map_map, List.map_map, List.map_map, List.map_map]
  congr 1
  · exact List.map_congr_left fun f hf => Finding.annotation?_command (h f hf)
  · exact List.map_congr_left fun e _ => e.annotation?_command

/-- Of all that is written of a run, only the places of its findings may be too far away. -/
theorem workflow_eq {r : RunResult} (h : ∀ f ∈ r.findings, f.severity?.isSome) :
    Output.workflow r = Stop.writing (unlessLong (r.findings.all Finding.isShort)
      ("\n".intercalate (r.commands.map Output.Command.write))) := by
  have herrors : r.report.errors.mapM Output.workflowError =
      .ok (r.report.errors.map fun e => e.command.write) :=
    mapM_eq_ok_map fun e _ => e.workflowError_eq
  have hfindings : r.findings.mapM Output.workflowFinding =
      Stop.writing (unlessLong (r.findings.all Finding.isShort)
        (r.findings.map fun f => f.command.write)) :=
    mapM_writing fun f hf => Finding.workflowFinding_eq (h f hf)
  unfold Output.workflow commands
  rw [hfindings, herrors, List.map_append, List.map_map, List.map_map]
  cases r.findings.all Finding.isShort <;> rfl

theorem exists_workflow_iff {r : RunResult} (h : ∀ f ∈ r.findings, f.severity?.isSome) :
    (∃ out, Output.workflow r = .ok out) ↔ ∀ f ∈ r.findings, f.isShort = true := by
  simp only [workflow_eq h, Stop.writing_eq_ok_iff, exists_unlessLong_iff, List.all_eq_true]

theorem eq_of_workflow {r : RunResult} (h : ∀ f ∈ r.findings, f.severity?.isSome) {out : String}
    (hout : Output.workflow r = .ok out) :
    "\n".intercalate (r.commands.map Output.Command.write) = out := by
  rw [workflow_eq h, Stop.writing_eq_ok_iff, unlessLong_eq_ok_iff] at hout
  exact hout.2

end RunResult

namespace Output

/-- The output has as many lines as were put together. -/
theorem commandLines_intercalate {cs : List Command} (h : ∀ c ∈ cs, c.WellFormed) :
    commandLines ("\n".intercalate (cs.map Command.write)) = cs.map Command.write := by
  cases cs with
  | nil => rfl
  | cons c cs =>
    have hne : "\n".intercalate ((c :: cs).map Command.write) ≠ "" := by
      intro hempty
      have hchars := congrArg String.toList hempty
      cases cs <;> simp [Command.toList_write] at hchars
    have hnewline : "\n".toList = ['\n'] := rfl
    unfold commandLines
    rw [if_neg hne, String.toList_intercalate, hnewline, List.splitOn_intercalate]
    · simp [Function.comp_def]
    · intro piece hpiece hbreak
      obtain ⟨line, hline, rfl⟩ := List.mem_map.mp hpiece
      obtain ⟨d, hd, rfl⟩ := List.mem_map.mp hline
      exact (Command.ne_of_mem_write (h d hd) hbreak).2 rfl
    · simp

end Output

theorem RunResult.read?_commands (r : RunResult) :
    (r.commands.map Output.Command.write).map Output.Command.read? = r.commands.map some := by
  rw [List.map_map]
  refine List.map_congr_left ?_
  intro c hc
  exact Output.Command.read?_write (wellFormed_of_mem_commands hc)

/-- What a run has to tell can be read from its commands. -/
theorem RunResult.readAnnotation?_commands {r : RunResult}
    (h : ∀ f ∈ r.findings, f.severity?.isSome) :
    (r.commands.map Output.Command.write).map Output.readAnnotation? = r.annotations.map some := by
  have hread : Output.readAnnotation? =
      (fun c => c.bind Output.Command.annotation?) ∘ Output.Command.read? := rfl
  rw [hread, ← List.map_map, read?_commands, List.map_map, ← annotations_eq h]
  rfl

/-- A run whose severities are known has workflow commands unless the line or the column of a
finding is too long to be written. They are one line for each finding and then one for each failure
of a rule. No line holds a carriage return, and from each the command can be read with its
properties and no others, and from that what was to be told: so runs that have the same output have
the same things to tell. -/
theorem workflow_commands_tell_what_the_run_found (r : RunResult)
    (h : ∀ f ∈ r.findings, f.severity?.isSome) :
    ((∃ out, Output.workflow r = .ok out) ↔ ∀ f ∈ r.findings, f.isShort = true) ∧
    ∀ out, Output.workflow r = .ok out →
      ∃ lines, out = "\n".intercalate lines ∧ Output.commandLines out = lines ∧
        lines.length = r.findings.length + r.report.errors.length ∧
        (∀ line ∈ lines, '\r' ∉ line.toList) ∧
        lines.map Output.Command.read? = r.commands.map some ∧
        lines.map Output.readAnnotation? = r.annotations.map some ∧
        ∀ r' : RunResult, (∀ f ∈ r'.findings, f.severity?.isSome) →
          Output.workflow r' = .ok out → r'.annotations = r.annotations := by
  have hwell : ∀ r : RunResult, ∀ c ∈ r.commands, c.WellFormed :=
    fun r c hc => RunResult.wellFormed_of_mem_commands hc
  refine ⟨RunResult.exists_workflow_iff h, fun out hout => ?_⟩
  obtain rfl := RunResult.eq_of_workflow h hout
  refine ⟨_, rfl, Output.commandLines_intercalate (hwell r), ?_, ?_, r.read?_commands,
    RunResult.readAnnotation?_commands h, ?_⟩
  · simp [RunResult.commands]
  · intro line hline hreturn
    obtain ⟨c, hc, rfl⟩ := List.mem_map.mp hline
    exact (Output.Command.ne_of_mem_write (hwell r c hc) hreturn).1 rfl
  · intro r' h' hout'
    have hlines := congrArg Output.commandLines (RunResult.eq_of_workflow h' hout')
    rw [Output.commandLines_intercalate (hwell r),
      Output.commandLines_intercalate (hwell r')] at hlines
    have hread := RunResult.readAnnotation?_commands h'
    rw [hlines, RunResult.readAnnotation?_commands h] at hread
    exact (List.map_inj_right fun _ _ => Option.some.inj).mp hread.symm

/-- A failure whose message looks like a command. -/
def forgedFailure : RuleFailure :=
  ⟨"h", ⟨"i,col=2", .int 3, .int 4, .int 3, .int 4⟩, .raised .value "j\n::k"⟩

theorem wording_forgedFailure :
    forgedFailure.wording = .ok "i,col=2:3:4: rule 'h' failed: ValueError: j\n::k" := by
  have hshort : forgedFailure.place.isShort = true := by
    rw [Place.isShort, forgedFailure, Numeral.isShort, Numeral.isShort,
      isShort_of_natAbs_lt (by decide), isShort_of_natAbs_lt (by decide)]
    rfl
  rw [RuleFailure.wording, Place.toText_eq, hshort]
  rfl

/-- A run whose texts look like commands themselves. -/
def forger : RunResult where
  report := {
    findings := [{
      ruleId := "a,line=9::b"
      severity := "info"
      place := ⟨"c=d%0A::error file=e", .int (-7), .flag true, .int 12, .int 0⟩
      message := "100%25\r\n::error file=e,line=1::f"
      suggestion := some "g" }]
    errors := [⟨forgedFailure, _, wording_forgedFailure⟩] }

theorem forger_tells_what_it_found :
    ∃ out, Output.workflow forger = .ok out ∧ (Output.commandLines out).map Output.readAnnotation? =
      [some (.finding "info" "c=d%0A::error file=e" (.int (-7)) (.flag true) 12 "a,line=9::b"
          "100%25\r\n::error file=e,line=1::f\ng"),
        some (.failure "i,col=2" (.int 3) "i,col=2:3:4: rule 'h' failed: ValueError: j\n::k")] := by
  have hknown : ∀ f ∈ forger.findings, f.severity?.isSome := by
    intro f hf
    obtain rfl := List.mem_singleton.mp hf
    rfl
  have hshort : ∀ f ∈ forger.findings, f.isShort = true := by
    intro f hf
    obtain rfl := List.mem_singleton.mp hf
    simp only [Finding.isShort, Place.isShort, Numeral.isShort, Bool.and_true, Bool.and_eq_true]
    exact ⟨isShort_of_natAbs_lt (by decide), isShort_of_natAbs_lt (by decide)⟩
  obtain ⟨hwritten, htold⟩ := workflow_commands_tell_what_the_run_found forger hknown
  obtain ⟨out, hout⟩ := hwritten.mpr hshort
  obtain ⟨lines, -, rfl, -, -, -, hread, -⟩ := htold out hout
  refine ⟨out, hout, ?_⟩
  rw [hread]
  decide

/-- A run with a finding at a line too far down to be written. -/
def farResult : RunResult where
  report := {
    findings := [{
      ruleId := "a"
      severity := "info"
      place := ⟨"A", .int longInteger, .int 1, .int longInteger, .int 1⟩
      message := "b" }] }

theorem farResult_has_no_commands :
    (∀ f ∈ farResult.findings, f.severity?.isSome) ∧
      ¬ ∃ out, Output.workflow farResult = .ok out := by
  have hknown : ∀ f ∈ farResult.findings, f.severity?.isSome := by
    intro f hf
    obtain rfl := List.mem_singleton.mp hf
    rfl
  refine ⟨hknown, fun hout => ?_⟩
  have hshort := (RunResult.exists_workflow_iff hknown).mp hout _ (List.mem_singleton_self _)
  simp only [Finding.isShort, Place.isShort, Numeral.isShort, isShort_longInteger,
    Bool.false_and] at hshort
  cases hshort

end ComponentLint

-- The command `lint`, which checks units.
import ComponentLint.Check.Standard
import ComponentLint.Command.Usage
import ComponentLint.File.Discovery
import ComponentLint.Number.Literal
import ComponentLint.Output.Lines
import ComponentLint.Output.Record
import ComponentLint.Output.Terminal
import ComponentLint.Run.Lint

namespace ComponentLint.Command

open ComponentLint.Output

/-! ## Its words -/

/-- The options of `lint`. -/
inductive LintOption where
  | config
  | format
  | failOn
  | jobs
  deriving DecidableEq, Repr

/-- How the options of `lint` are spelled. -/
def lintOptions : List (OptionSpec LintOption) :=
  [{ key := .config, long := "--config" }, { key := .format, long := "--format" },
   { key := .failOn, long := "--fail-on" }, { key := .jobs, long := "--jobs", short := some 'j' }]

/-- The formats of a result. -/
inductive Format where
  | terminal
  | record
  | porcelain
  | workflow
  deriving DecidableEq, Repr

namespace Format

def all : List Format := [terminal, record, porcelain, workflow]

def name : Format → String
  | terminal => "rich"
  | record => "json"
  | porcelain => "porcelain"
  | workflow => "github"

/-- The format with a given name. -/
def ofName? (s : String) : Option Format := all.find? fun f => f.name == s

/-- A result in a format. -/
def render (r : RunResult) : Format → Except (Stop Unranked) String
  | terminal => Output.terminal false 100 r
  | record => Output.record r
  | porcelain => Stop.writing (Output.porcelain r)
  | workflow => Output.workflow r

end Format

/-- What `lint` is asked to do. -/
structure LintCall where
  models : List String := []
  configs : List String := []
  format : Format := .porcelain
  failOn : Option String := none
  jobs : Int := 1
  deriving DecidableEq, Repr

/-- What the system says about a word that should lead to a file. -/
def fileAt (w : Workspace) (word : String) : Except FileFault FileTree :=
  if word.isEmpty then .error .missing
  else do
    match ← w.lookup (Path.ofText word) with
    | .file bytes => if word.endsWith "/" then throw .notFolder else return .file bytes
    | t => return t

/-- Checks that a word leads to a file. -/
def checkFile (w : Workspace) (label word : String) : Except UsageFault Unit :=
  if (Path.ofText word).hasNull then .error .nullInPath
  else
    match fileAt w word with
    | .ok (.file _) => .ok ()
    | .ok (.folder _) => .error (.folder label word)
    | .error _ => .error (.missingFile label word)

/-- Checks the words of one option and takes its value over; of a single option the last word
counts. -/
def readOption (w : Workspace) (call : LintCall) (key : LintOption) (values : List String) :
    Except UsageFault LintCall :=
  let last := values.getLast?.getD ""
  match key with
  | .config => do
    values.forM (checkFile w "'--config'")
    return { call with configs := values }
  | .format =>
    match Format.ofName? last with
    | some format => .ok { call with format }
    | none => .error (.choice "'--format'" last (Format.all.map Format.name))
  | .failOn =>
    match Severity.ofName? last with
    | some s => .ok { call with failOn := some s.name }
    | none => .error (.choice "'--fail-on'" last (Severity.all.map Severity.name))
  | .jobs =>
    match Number.readInt 10 last.toList with
    | .error _ => .error (.notNumber last)
    | .ok n => if n < 1 then .error (.numberRange n) else .ok { call with jobs := n }

/-- The keys of options in the order of their first appearance. -/
def keysInOrder (options : List (LintOption × String)) : List LintOption :=
  options.foldl (fun seen e => if seen.contains e.1 then seen else seen ++ [e.1]) []

/-- Reads the words of `lint`: its options in the order given, then the models. -/
def readLintCall (w : Workspace) (words : List String) : Except UsageFault LintCall := do
  let parsed ← (parse lintOptions true words).mapError .option
  let call ← (keysInOrder parsed.options).foldlM
    (fun call key =>
      readOption w call key ((parsed.options.filter fun e => e.1 == key).map Prod.snd))
    ({} : LintCall)
  if parsed.words.isEmpty then throw .missingModels
  parsed.words.forM (checkFile w "'MODELS...'")
  return { call with models := parsed.words }

/-! ## Its run -/

/-- The lines, each with a line feed after it. -/
def linesText (lines : List String) : String := String.join (lines.map (· ++ "\n"))

/-- The lines of a message: what a command prints holds no control sequences. -/
def plainLines (lines : List String) : List String := lines.map Text.plainText

/-- What is said beside the findings in formats that only show those. -/
def troubleLines (r : RunResult) : List String :=
  r.report.errors.map (fun e => "rule error: " ++ e.message)
    ++ r.skipped.map (fun s => s!"skipped: {s.path}: {s.reason}")
    ++ r.configErrors.map (fun e => "config: " ++ e.toText)

/-- How much the program says: what it notes down, and whether it is quiet. -/
structure Verbosity where
  level : LogLevel := .warning
  quiet : Bool := false
  deriving DecidableEq, Repr

/-- The result of a run that is finished. -/
def finished (v : Verbosity) (format : Format) (notes : List String) (r : RunResult) : Result :=
  let shown : Except (Stop Unranked) Result := do
    let output ← format.render r
    let trouble :=
      if (format = .porcelain || format = .workflow) && !v.quiet then troubleLines r else []
    return {
      exitCode := ← Stop.refusing r.exitCode
      out := if output.isEmpty then "" else Text.plainText output ++ "\n"
      err := linesText (notes ++ plainLines trouble) }
  match shown with
  | .ok result => result
  | .error (.refused _) => { exitCode := 1, unexpected := some "KeyError" }
  | .error .longInteger => { exitCode := 1, unexpected := some "ValueError" }

/-- Runs `lint`. Without a configuration the nearest one is taken (`discover_config`). -/
def runLint (w : Workspace) (v : Verbosity) (call : LintCall) : Result :=
  let configs :=
    if call.configs.isEmpty then (w.discover (Path.ofText ".")).toList
    else call.configs.map Path.ofText
  let run := w.lint Catalog.standard
    { models := call.models.map Path.ofText, configs, failOn := call.failOn, jobs := call.jobs }
  let notes := (LogLine.atLeast v.level run.log).map LogLine.toText
  match run.outcome with
  | .ok r => finished v call.format notes r
  | .error fault =>
    if fault.className = "LintError" then
      { exitCode := 2, err := linesText (notes ++ plainLines ["Error: " ++ fault.message]) }
    else { exitCode := 1, unexpected := some fault.className }

end ComponentLint.Command

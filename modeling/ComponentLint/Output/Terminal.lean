-- A result for the terminal: styled lines, wrapped to its width.
import ComponentLint.Output.Wrap
import ComponentLint.Run.Result

namespace ComponentLint.Output

open ComponentLint.Number

/-! ## Styled text -/

/-- The styles of terminal text. -/
inductive Style where
  | plain
  | boldRed
  | yellow
  | cyan
  | bold
  | dim
  | green
  | boldMagenta
  | magenta
  deriving DecidableEq, Repr

/-- The codes that switch a style on. -/
def Style.codes : Style → String
  | plain => ""
  | boldRed => "1;31"
  | yellow => "33"
  | cyan => "36"
  | bold => "1"
  | dim => "2"
  | green => "32"
  | boldMagenta => "1;35"
  | magenta => "35"

/-- A character of a terminal line: its style, and the part of the line it is in. -/
structure Glyph where
  char : Char
  style : Style
  part : Nat := 0
  deriving DecidableEq, Repr

/-- Whether a character is left out on a terminal: a bell, a backspace, a vertical tab, a form feed
or a carriage return. -/
def isDropped (c : Char) : Bool := [7, 8, 11, 12, 13].contains c.toNat

/-- A text in a style. -/
def styled (style : Style) (s : String) : List Glyph :=
  (s.toList.filter fun c => !isDropped c).map fun char => { char, style }

/-- The lines of a styled text. -/
def styledLines : List Glyph → List (List Glyph)
  | [] => [[]]
  | g :: rest =>
    if g.char = '\n' then [] :: styledLines rest
    else
      match styledLines rest with
      | [] => [[g]]
      | line :: more => (g :: line) :: more

/-- A blank in the style of a character. -/
def Glyph.blank (g : Glyph) : Glyph := { g with char := ' ' }

/-- A line with blanks up to the next stop of eight in place of each tab, from a column on. A part
of the line ends with every tab. -/
def expandTabs (column part : Nat) : List Glyph → List Glyph
  | [] => []
  | g :: rest =>
    if g.char = '\t' then
      let blanks := 8 - column % 8
      List.replicate blanks { g.blank with part }
        ++ expandTabs (column + blanks) (part + 1) rest
    else { g with part } :: expandTabs (column + Text.cellsOf g.char) part rest

/-- The runs of one style and one part in a line. -/
def runs : List Glyph → List (List Glyph)
  | [] => []
  | g :: rest =>
    match runs rest with
    | (h :: run) :: more =>
      if h.style = g.style && h.part = g.part then (g :: h :: run) :: more
      else [g] :: (h :: run) :: more
    | more => [g] :: more

/-- The text of one run, with the codes of its style around it when there is colour. -/
def renderRun (color : Bool) (run : List Glyph) : String :=
  let text := String.ofList (run.map Glyph.char)
  let style := (run.head?.map Glyph.style).getD .plain
  if color && style != .plain then "\x1b[" ++ style.codes ++ "m" ++ text ++ "\x1b[0m" else text

/-- A line, written out. -/
def renderLine (color : Bool) (line : List Glyph) : String :=
  String.join ((runs line).map (renderRun color))

/-- A styled text wrapped to a width and written out, with a line feed after every line. Without
any room nothing is written. -/
def printed (color : Bool) (width : Nat) (text : List Glyph) : String :=
  let lines :=
    (styledLines text).flatMap fun line =>
      wrapLine Glyph.char Glyph.blank width (expandTabs 0 0 line)
  if width = 0 then "" else String.join (lines.map fun line => renderLine color line ++ "\n")

/-! ## Results -/

/-- The mark of a severity. -/
def marker : Severity → String
  | .error => "✗"
  | .warning => "!"
  | .info => "i"

/-- The style of a severity. -/
def severityStyle : Severity → Style
  | .error => .boldRed
  | .warning => .yellow
  | .info => .cyan

/-- A text followed by blanks up to a width. -/
def padTo (width : Nat) (s : String) : String :=
  s ++ String.ofList (List.replicate (width - s.length) ' ')

/-- The sentence that sums a result up (`_summary_line`). -/
def summaryLine (r : RunResult) : Except Unranked String := do
  let counts ← r.report.counts
  let parts := ", ".intercalate (counts.map fun (level, n) => s!"{n} {level.name}")
  let total := r.findings.length
  let noun := if total = 1 then "finding" else "findings"
  let seconds := (r.elapsedMs.divNat 1000).toTenths
  return s!"{total} {noun} ({parts}) in {r.unitsAnalyzed} units, "
    ++ s!"{r.rulesEvaluated} rules, {seconds}s"

/-- The texts of a finding, each on lines of its own. -/
def findingTexts (f : Finding) : Except (Stop Unranked) (List (List Glyph)) := do
  let severity ← Stop.refusing (Severity.ofName f.severity)
  let place ← Stop.writing f.place.toText
  let header := styled (severityStyle severity) (marker severity ++ " " ++ padTo 8 f.severity)
    ++ styled .bold (place ++ "  ") ++ styled .dim f.ruleId
  let hint := match f.suggestion with
    | some s => if s.isEmpty then [] else [styled .green ("  hint: " ++ s)]
    | none => []
  return header :: styled .plain ("  " ++ f.message) :: hint ++ [[]]

/-- The texts about what went wrong beside the findings. -/
def troubleTexts (r : RunResult) : List (List Glyph) :=
  let texts :=
    r.report.errors.map (fun e => styled .boldMagenta ("rule error: " ++ e.message))
      ++ r.skipped.map (fun s => styled .magenta s!"skipped: {s.path}: {s.reason}")
      ++ r.configErrors.map (fun e => styled .magenta ("config: " ++ e.toText))
  if texts.isEmpty then [] else texts ++ [[]]

/-- The last text of a result. -/
def closingText (r : RunResult) : Except Unranked (List Glyph) := do
  let summary ← summaryLine r
  return if r.findings.isEmpty then styled .green s!"✓ No findings ({summary})"
    else styled .bold summary

/-- A result for a terminal of the given width (`format_rich`). -/
def terminal (color : Bool) (width : Nat) (r : RunResult) : Except (Stop Unranked) String := do
  let opening := [styled .plain s!"Rules: {r.rulesEvaluated} active",
    styled .plain s!"Units: {r.unitsAnalyzed} analyzed, {r.skipped.length} skipped", []]
  let findings ← r.findings.mapM findingTexts
  let closing ← Stop.refusing (closingText r)
  let texts := opening ++ findings.flatten ++ troubleTexts r ++ [closing]
  let whole := String.join (texts.map (printed color width))
  return String.ofList (whole.toList.reverse.dropWhile (· = '\n')).reverse

end ComponentLint.Output

-- The command `rules`, which lists the catalog.
import ComponentLint.Check.Standard
import ComponentLint.Command.Usage
import ComponentLint.Json.Basic
import ComponentLint.Output.Table

namespace ComponentLint.Command

open ComponentLint.Number ComponentLint.Output

/-- A parameter's default as it is shown (`_display`). -/
def defaultText : Value → Except LongInteger String
  | .tuple items => do return ",".intercalate (← items.mapM Value.toText)
  | v => v.toText

/-- The cells of a rule. -/
def ruleCells (d : Descriptor) : Except LongInteger (List String) := do
  let texts ← d.params.mapM fun p => do return s!"{p.name}={← defaultText p.default}"
  let params := ", ".intercalate texts
  return [d.id, d.category.name, d.severity.name, if d.enabled then "on" else "off",
    if params.isEmpty then "-" else params]

/-- The columns of the list of rules. -/
def ruleColumns : List Column :=
  [{ title := "Rule" }, { title := "Category" }, { title := "Severity" }, { title := "Default" },
   { title := "Parameters", wraps := true }]

/-- The record of a rule. -/
def ruleJson (d : Descriptor) : Except LongInteger Json := do
  let params ← d.defaults.mapM fun (name, v) => do return (name, ← v.toJson)
  return .obj [("rule_id", .str d.id), ("category", .str d.category.name),
    ("severity", .str d.severity.name), ("enabled", .bool d.enabled),
    ("description", .str d.description), ("params", .obj params)]

/-- The only option of `rules`. -/
def rulesOptions : List (OptionSpec Unit) := [{ key := (), long := "--json", takesValue := false }]

/-- The list of some rules, as a table within a width or as JSON. -/
def rulesText (width : Nat) (asJson : Bool) (rules : List Descriptor) :
    Except LongInteger String :=
  if asJson then do return (← (Json.arr (← rules.mapM ruleJson)).pretty 0) ++ "\n"
  else do return table width ruleColumns (← rules.mapM ruleCells)

/-- Runs `rules` for a terminal of a width. -/
def runRules (width : Nat) (words : List String) : Result :=
  match parse rulesOptions true words with
  | .error fault => misuse .rules (.option fault)
  | .ok parsed =>
    if parsed.words.isEmpty then
      match rulesText width (!parsed.options.isEmpty) Catalog.standard.sorted with
      | .ok out => { exitCode := 0, out }
      | .error _ => { exitCode := 1, unexpected := some "ValueError" }
    else misuse .rules (.extraWords parsed.words)

end ComponentLint.Command

-- The program as a function from its words and the file system to what it
-- prints and its exit code.
import ComponentLint.Command.Lint
import ComponentLint.Command.Rules

namespace ComponentLint.Command

/-- The options of the program. -/
inductive ProgramOption where
  | version
  | verbose
  | quiet
  deriving DecidableEq, Repr

/-- How the options of the program are spelled. -/
def programOptions : List (OptionSpec ProgramOption) :=
  [{ key := .version, long := "--version", takesValue := false },
   { key := .verbose, long := "--verbose", short := some 'v', takesValue := false },
   { key := .quiet, long := "--quiet", short := some 'q', takesValue := false }]

/-- The verbosity that options ask for; asking for more wins. -/
def verbosity (options : List (ProgramOption × String)) : Verbosity :=
  let has (key : ProgramOption) : Bool := options.any fun e => e.1 == key
  { level := if has .verbose then .debug else if has .quiet then .error else .warning
    quiet := has .quiet }

/-- What the version option prints. -/
def versionShown : Result := { exitCode := 0, out := "viewlint, version 0.1.0\n" }

/-- Whether the options ask for the version. -/
def asksVersion (parsed : Parsed ProgramOption) : Bool :=
  parsed.options.any fun e => e.1 == .version

/-- The result when the first word is no command. A word that is spelled like an option is first
read as one. -/
def unknownCommand (name : String) (rest : List String) : Result :=
  match parse programOptions false (name :: rest) with
  | .error fault => misuse .program (.option fault)
  | .ok parsed =>
    if asksVersion parsed then versionShown else misuse .program (.unknownCommand name)

/-- Runs the program with its words, for a terminal of a width. -/
def run (w : Workspace) (width : Nat) (words : List String) : Result :=
  match parse programOptions false words with
  | .error fault => misuse .program (.option fault)
  | .ok parsed =>
    if asksVersion parsed then versionShown
    else
      match parsed.words with
      | [] => misuse .program .missingCommand
      | "lint" :: rest =>
        match readLintCall w rest with
        | .ok call => runLint w (verbosity parsed.options) call
        | .error fault => misuse .lint fault
      | "rules" :: rest => runRules width rest
      | name :: rest => unknownCommand name rest

end ComponentLint.Command

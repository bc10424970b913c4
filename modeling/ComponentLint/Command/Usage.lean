-- What a command prints, how commands are called, and what is said when one
-- is called in a wrong way.
import ComponentLint.Command.Options
import ComponentLint.Text.ControlSequence

namespace ComponentLint.Command

open ComponentLint.Text

/-! ## Results -/

/-- What a command prints and its exit code. A failure that no command expects has a class and
nothing else. -/
structure Result where
  exitCode : Nat
  out : String := ""
  err : String := ""
  unexpected : Option String := none
  deriving DecidableEq, Repr

/-- The commands, and the program itself. -/
inductive Name where
  | program
  | lint
  | rules
  deriving DecidableEq, Repr

/-- How a command is called. -/
def Name.usage : Name → String
  | program => "viewlint [OPTIONS] COMMAND [ARGS]..."
  | lint => "viewlint lint [OPTIONS] MODELS..."
  | rules => "viewlint rules [OPTIONS]"

/-- The words that lead to a command. -/
def Name.words : Name → String
  | program => "viewlint"
  | lint => "viewlint lint"
  | rules => "viewlint rules"

/-- Why a command cannot be called as it was. -/
inductive UsageFault where
  | option (fault : OptionFault)
  | missingCommand
  | unknownCommand (name : String)
  | missingModels
  | extraWords (words : List String)
  | missingFile (label word : String)
  | folder (label word : String)
  /-- A word with a null character, which no file system takes. -/
  | nullInPath
  | choice (label word : String) (choices : List String)
  | notNumber (word : String)
  | numberRange (n : Int)
  deriving Repr

/-- The wording of a fault. -/
def UsageFault.message : UsageFault → String
  | option fault => fault.message
  | missingCommand => "Missing command."
  | unknownCommand name => "No such command " ++ quoted name ++ "."
  | missingModels => "Missing argument 'MODELS...'."
  | extraWords words =>
    let noun := if words.length = 1 then "argument" else "arguments"
    s!"Got unexpected extra {noun} (" ++ " ".intercalate words ++ ")"
  | missingFile label word => s!"Invalid value for {label}: File {quoted word} does not exist."
  | nullInPath => "embedded null byte"
  | folder label word => s!"Invalid value for {label}: File {quoted word} is a directory."
  | choice label word choices =>
    s!"Invalid value for {label}: {quoted word} is not one of "
      ++ ", ".intercalate (choices.map quoted) ++ "."
  | notNumber word =>
    s!"Invalid value for '--jobs' / '-j': {quoted word} is not a valid integer range."
  | numberRange n => s!"Invalid value for '--jobs' / '-j': {n} is not in the range x>=1."

/-- Whether the way a command is called is shown with a fault. A value that is missing after its
option, or that an option does not take, is told without it. -/
def UsageFault.showsUsage : UsageFault → Bool
  | option (.noValue _) => false
  | option (.unwantedValue _) => false
  | _ => true

/-- The result of a command that was called in a wrong way. -/
def misuse (name : Name) : UsageFault → Result
  | .nullInPath => { exitCode := 1, unexpected := some "ValueError" }
  | fault =>
    let usage := s!"Usage: {name.usage}\nTry '{name.words} --help' for help.\n\n"
    { exitCode := 2
      err := (if fault.showsUsage then usage else "") ++ s!"Error: {plainText fault.message}\n" }

end ComponentLint.Command

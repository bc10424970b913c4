-- Reading the options of a command. A long option takes its value after an
-- equals sign or from the next word; short ones can stand together, and the
-- rest of the word is the value of the first that takes one. Two dashes end
-- the options.
import ComponentLint.Text.Quoted

namespace ComponentLint.Command

open ComponentLint.Text

/-- An option of a command: how it is spelled, and whether it takes a value. -/
structure OptionSpec (κ : Type) where
  key : κ
  long : String
  short : Option Char := none
  takesValue : Bool := true

/-- Why options cannot be read. -/
inductive OptionFault where
  | unknown (name : String)
  | noValue (name : String)
  | unwantedValue (name : String)
  deriving DecidableEq, Repr

/-- The wording of a fault. -/
def OptionFault.message : OptionFault → String
  | unknown name => "No such option " ++ quoted name ++ "."
  | noValue name => "Option " ++ quoted name ++ " requires an argument."
  | unwantedValue name => "Option " ++ quoted name ++ " does not take a value."

/-- What was read: the options in order, each with its value, and the other words. -/
structure Parsed (κ : Type) where
  options : List (κ × String) := []
  words : List String := []

namespace Parsed

variable {κ : Type}

/-- Adds options in front. -/
def withOptions (found : List (κ × String)) (p : Parsed κ) : Parsed κ :=
  { p with options := found ++ p.options }

/-- Adds a word in front. -/
def withWord (word : String) (p : Parsed κ) : Parsed κ := { p with words := word :: p.words }

end Parsed

variable {κ : Type}

/-- The name of a long option, and its value if it is written in the same word. -/
def splitLong (word : String) : String × Option String :=
  let cs := word.toList
  let name := String.ofList (cs.takeWhile (· ≠ '='))
  match cs.dropWhile (· ≠ '=') with
  | _ :: value => (name, some (String.ofList value))
  | [] => (name, none)

/-- What short options in one word come to: those found, and the one that still needs its value. -/
structure Cluster (κ : Type) where
  found : List (κ × String) := []
  open? : Option (κ × String) := none

/-- Reads the short options of a word. -/
def readCluster (specs : List (OptionSpec κ)) : List Char → Except OptionFault (Cluster κ)
  | [] => .ok {}
  | c :: rest =>
    let name := String.ofList ['-', c]
    match specs.find? fun s => s.short == some c with
    | none => .error (.unknown name)
    | some spec =>
      if spec.takesValue then
        if rest.isEmpty then .ok { open? := some (spec.key, name) }
        else .ok { found := [(spec.key, String.ofList rest)] }
      else do
        let more ← readCluster specs rest
        return { more with found := (spec.key, "") :: more.found }

/-- Whether a word is an option. -/
def isOption (word : String) : Bool := word.startsWith "-" && word != "-"

/-- What one word comes to. -/
def readWord (specs : List (OptionSpec κ)) (word : String) : Except OptionFault (Cluster κ) :=
  let (name, value) := splitLong word
  match specs.find? fun s => s.long == name with
  | some spec =>
    match spec.takesValue, value with
    | true, some v => .ok { found := [(spec.key, v)] }
    | true, none => .ok { open? := some (spec.key, name) }
    | false, some _ => .error (.unwantedValue name)
    | false, none => .ok { found := [(spec.key, "")] }
  | none =>
    if word.startsWith "--" then .error (.unknown name)
    else readCluster specs (word.toList.drop 1)

/-- Reads options among words. When the words may not be mixed, the first that is no option ends
the options. -/
def parse (specs : List (OptionSpec κ)) (mixed : Bool) :
    List String → Except OptionFault (Parsed κ)
  | [] => .ok {}
  | word :: rest =>
    if word = "--" then .ok { words := rest }
    else if isOption word then do
      let cluster ← readWord specs word
      match cluster.open? with
      | none => return (← parse specs mixed rest).withOptions cluster.found
      | some (key, name) =>
        match rest with
        | [] => throw (.noValue name)
        | value :: rest =>
          return (← parse specs mixed rest).withOptions (cluster.found ++ [(key, value)])
    else if mixed then do return (← parse specs mixed rest).withWord word
    else .ok { words := word :: rest }

end ComponentLint.Command

-- Parameters of rules. Each has a domain: the integers from a minimum on,
-- the texts, or the lists of names, which may also be given as one text with
-- commas. Coercing a value puts it into the domain or says why it is outside.
import ComponentLint.Text.Basic
import ComponentLint.Value.Text

namespace ComponentLint

open ComponentLint.Number ComponentLint.Text

/-! ## Name lists -/

/-- The names among some texts: blanks around each are dropped, and so is what is blank. -/
def cleanNames (parts : List String) : List String :=
  (parts.map trimText).filter fun name => !name.isEmpty

/-- The names of a text that separates them by commas (`_split_names`). -/
def splitNames (s : String) : List String :=
  cleanNames ((List.splitOn ',' s.toList).map String.ofList)

/-- The value that holds some names. -/
def namesValue (names : List String) : Value := .tuple (names.map Value.str)

/-- The texts, when every value is one. -/
def allTexts? : List Value → Option (List String)
  | [] => some []
  | v :: rest => do
    let first ← v.text?
    return first :: (← allTexts? rest)

/-- The names a value stands for: a text with commas, or a list of texts. -/
def namesOf? (v : Value) : Option (List String) :=
  match v.unfold with
  | .str s => some (splitNames s)
  | .list items => (allTexts? items).map cleanNames
  | .tuple items => (allTexts? items).map cleanNames
  | _ => none

/-! ## Parameters -/

/-- The domains of parameters. -/
inductive Domain where
  | int
  | text
  | names
  deriving DecidableEq, Repr

namespace Domain

def all : List Domain := [int, text, names]

def name : Domain → String
  | int => "int"
  | text => "str"
  | names => "names"

/-- The domain with a given name. -/
def ofName? (s : String) : Option Domain := all.find? fun d => d.name == s

end Domain

/-- A parameter of a rule. The minimum only bounds integers. -/
structure Parameter where
  name : String
  default : Value
  domain : Domain := .int
  minimum : Option Int := none
  description : String := ""
  deriving Repr

/-- Why a parameter cannot be declared. -/
inductive ParameterFault where
  | domain (name domain : String)
  /-- The default of a list of names cannot be gone through. -/
  | notIterable (typeName : String)
  /-- One of the default names is an integer with too many digits to be written. -/
  | longInteger
  deriving DecidableEq, Repr

def ParameterFault.message : ParameterFault → String
  | .domain name word => s!"parameter '{name}': invalid kind '{word}'"
  | .notIterable typeName => s!"'{typeName}' object is not iterable"
  | .longInteger => LongInteger.message

/-- Why a value, in its written form, is outside the domain of a parameter. -/
inductive Unfit where
  | notInteger (written : String)
  | belowMinimum (minimum written : String)
  | notText (written : String)
  | notNames (written : String)
  deriving DecidableEq, Repr

/-- The wording of a refused value. -/
def Unfit.message (name : String) : Unfit → String
  | notInteger w => s!"parameter '{name}' must be an integer, got {w}"
  | belowMinimum minimum w => s!"parameter '{name}' must be >= {minimum}, got {w}"
  | notText w => s!"parameter '{name}' must be a string, got {w}"
  | notNames w => s!"parameter '{name}' must be a list of names, got {w}"

/-- Refuses a value, which is written for that. -/
def Unfit.refuse (why : String → Unfit) (v : Value) : Except (Stop Unfit) Value := do
  let written ← Stop.writing v.written
  throw (.refused (why written))

namespace Parameter

/-- Declares a parameter (`ParamSpec`). The default of a list of names is cleaned up. -/
def declare (name : String) (default : Value) (domain : String) (minimum : Option Int)
    (description : String) : Except ParameterFault Parameter :=
  match Domain.ofName? domain with
  | none => .error (.domain name domain)
  | some .names =>
    match default with
    | .str s => .ok ⟨name, namesValue (splitNames s), .names, minimum, description⟩
    | _ =>
      match default.items? with
      | some items => do
        let texts ← (items.mapM Value.toText).mapError fun _ => .longInteger
        return ⟨name, namesValue (cleanNames texts), .names, minimum, description⟩
      | none => .error (.notIterable default.typeName)
  | some d => .ok ⟨name, default, d, minimum, description⟩

/-- A parameter that is an integer from a minimum on. -/
def ofInt (name : String) (default minimum : Int) (description : String := "") : Parameter :=
  ⟨name, .int default, .int, some minimum, description⟩

/-- A parameter that is a list of names. -/
def ofNames (name : String) (default : List String) (description : String := "") : Parameter :=
  ⟨name, namesValue default, .names, none, description⟩

/-- Puts a value into the domain of a parameter (`ParamSpec.coerce`). -/
def coerce (p : Parameter) (v : Value) : Except (Stop Unfit) Value :=
  match p.domain with
  | .int =>
    match v with
    | .int n =>
      match p.minimum with
      | some minimum =>
        if n < minimum then do
          let least ← Stop.writing (writeInt minimum)
          Unfit.refuse (.belowMinimum least) v
        else .ok v
      | none => .ok v
    | _ => Unfit.refuse .notInteger v
  | .text =>
    match v with
    | .str _ => .ok v
    | _ => Unfit.refuse .notText v
  | .names =>
    match namesOf? v with
    | some names => .ok (namesValue names)
    | none => Unfit.refuse .notNames v

end Parameter

end ComponentLint

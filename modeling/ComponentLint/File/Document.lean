-- Reading documents from files: units and configurations.
import ComponentLint.File.Tree
import ComponentLint.Model.Document
import ComponentLint.Rule.Config
import ComponentLint.Text.Utf8
import ComponentLint.Yaml.Build

namespace ComponentLint

open ComponentLint.Text

/-- Why a file holds no document. -/
inductive DocumentReadFault where
  | unreachable (fault : FileFault)
  /-- The path holds a null character. -/
  | nullInPath
  | notUtf8 (fault : Utf8Fault)
  | yaml (fault : Yaml.Fault)
  deriving DecidableEq, Repr

/-- What is said about a path with a null character. -/
def nullMessage : String := "embedded null byte"

namespace Workspace

/-- The document in the file that a path leads to. -/
def readDocument (w : Workspace) (p : Path) : Except DocumentReadFault Value := do
  if p.hasNull then throw .nullInPath
  let bytes ← (w.read p).mapError .unreachable
  let text ← (decodeUtf8 bytes).mapError .notUtf8
  (Yaml.load (unifyBreaks text)).mapError .yaml

end Workspace

/-! ## Units -/

/-- Why a file holds no unit. -/
inductive UnitFault where
  | load (fault : LoadFault)
  | nullInPath
  | notUtf8 (fault : Utf8Fault)
  /-- A scalar does not make the value it is meant to be. -/
  | yaml (fault : Yaml.Fault)
  deriving Repr

namespace UnitFault

/-- The class of a fault that is not about the form of the document. -/
def className? : UnitFault → Option String
  | load (.malformed _) => none
  | load (.column f) => some f.className
  | load .longInteger => some "ValueError"
  | load .bottomless => some "RecursionError"
  | nullInPath => some "ValueError"
  | notUtf8 _ => some "UnicodeDecodeError"
  | yaml f => f.className?

/-- The wording of a fault. -/
def message : UnitFault → String
  | load (.malformed m) => m.message
  | load (.column f) => f.message
  | load .longInteger => Number.LongInteger.message
  | load .bottomless => "maximum recursion depth exceeded"
  | nullInPath => nullMessage
  | notUtf8 f => f.message
  | yaml f => f.message

/-- Why the unit is skipped. -/
def reason (f : UnitFault) : String :=
  match f.className? with
  | some name => "cannot load model: " ++ name
  | none => f.message

end UnitFault

/-- The unit in the file that a path leads to (`load_model`). -/
def Workspace.readModel (w : Workspace) (p : Path) : Except UnitFault Model :=
  let refuse (fault : DocumentFault) : Except UnitFault Model :=
    .error (.load (.document p.toText fault))
  match w.readDocument p with
  | .ok v => (Model.ofDocument p.toText v).mapError .load
  | .error (.unreachable f) => refuse (.unreadable (f.message p))
  | .error .nullInPath => .error .nullInPath
  | .error (.notUtf8 f) => .error (.notUtf8 f)
  | .error (.yaml .invalid) => refuse .notYaml
  | .error (.yaml f) => .error (.yaml f)

/-! ## Configurations -/

/-- Why a file holds no configuration layer. -/
inductive LayerFault where
  | invalid (error : ConfigError)
  /-- The version is of a type that has no hash. -/
  | unhashable (typeName : String)
  /-- The version has an integer with too many digits to be written. -/
  | longInteger
  | nullInPath
  | notUtf8 (fault : Utf8Fault)
  /-- A scalar does not make the value it is meant to be. -/
  | yaml (fault : Yaml.Fault)
  deriving Repr

namespace LayerFault

/-- The class of a fault. -/
def className : LayerFault → String
  | invalid _ => "ConfigParseError"
  | unhashable _ => "TypeError"
  | longInteger => "ValueError"
  | nullInPath => "ValueError"
  | notUtf8 _ => "UnicodeDecodeError"
  | yaml f => f.className?.getD "ConfigParseError"

/-- The wording of a fault. -/
def message : LayerFault → String
  | invalid e => e.toText
  | unhashable typeName => s!"unhashable type: '{typeName}'"
  | longInteger => Number.LongInteger.message
  | nullInPath => nullMessage
  | notUtf8 f => f.message
  | yaml f => f.message

end LayerFault

/-- The refusal of a version, which is written for that. -/
def LayerFault.ofVersion (source : String) (version : Value) : LayerFault :=
  match version.written with
  | .ok written => .invalid { cause := .version written, source }
  | .error _ => .longInteger

/-- The layer that a document from a source makes, which has to be of the first version. A version
has to have a hash, but a set can still be told apart from every version. -/
def Layer.ofDocument (source : String) (v : Value) : Except LayerFault Layer := do
  let data : Value := match v with
    | .null => .map []
    | v => v
  match data.unfold with
  | .map _ =>
    let version := (data.field? "version").getD (.int 1)
    match version, version.unhashable? with
    | .set _, _ => throw (.ofVersion source version)
    | _, some part => throw (LayerFault.unhashable part.typeName)
    | _, none =>
      if version.wholeNumber? = some 1 then return ⟨source, data⟩
      else throw (.ofVersion source version)
  | _ => throw (.invalid { cause := .notMapping, source })

/-- The configuration layer in the file that a path leads to (`load_config_file`). -/
def Workspace.readLayer (w : Workspace) (p : Path) : Except LayerFault Layer :=
  let refuse (cause : ConfigCause) : Except LayerFault Layer :=
    .error (.invalid { cause, source := p.toText })
  match w.readDocument p with
  | .ok v => Layer.ofDocument p.toText v
  | .error (.unreachable f) => refuse (.unreadable (f.message p))
  | .error .nullInPath => .error .nullInPath
  | .error (.notUtf8 f) => .error (.notUtf8 f)
  | .error (.yaml .invalid) => refuse .notYaml
  | .error (.yaml f) => .error (.yaml f)

end ComponentLint

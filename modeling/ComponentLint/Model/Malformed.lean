-- Why a unit is refused. Each defect knows the node or the part of the
-- document it is about, and the wording of all of them stands here. A unit is
-- refused in words, so there is a refusal only where the words can be written.
import ComponentLint.Model.Node

namespace ComponentLint

open ComponentLint.Number ComponentLint.Text

/-- The place of a node in a document: where the document comes from, the index of a top-level
node, and the indices of children on the way down. -/
structure NodePath where
  origin : String
  root : Nat
  below : List Nat := []
  deriving DecidableEq, Repr

namespace NodePath

/-- The path of a child. -/
def child (p : NodePath) (i : Nat) : NodePath := { p with below := p.below ++ [i] }

/-- A path, written out. -/
def toText (p : NodePath) : String :=
  s!"{p.origin}: nodes[{p.root}]" ++ String.join (p.below.map fun i => s!".children[{i}]")

end NodePath

/-- Why a node of a document cannot be read. -/
inductive NodeFault where
  | notMapping
  | noKind
  | spanMissing (field : String)
  | spanForm
  /-- The numbers of a span, as they are written, are not four positive integers. -/
  | spanNumbers (written : String)
  | annotations
  | attributes
  | children
  deriving DecidableEq, Repr

/-- The wording of a fault in a node. -/
def NodeFault.message : NodeFault → String
  | notMapping => "node must be a mapping"
  | noKind => "missing required 'kind' field"
  | spanMissing field => "span is missing '" ++ field ++ "'"
  | spanForm => "'span' must be a list or mapping"
  | spanNumbers written => "span must be four positive integers, got " ++ written
  | annotations => "'annotations' must be a mapping or list"
  | attributes => "'attributes' must be a mapping"
  | children => "'children' must be a list"

/-- Why a document as a whole cannot be read. -/
inductive DocumentFault where
  | unreadable (reason : String)
  | notYaml
  | notMapping
  | noFile
  | sourceForm
  | nodesForm
  | suppressionsForm
  | suppressionForm (index : Nat)
  | suppressionFields (index : Nat)
  deriving DecidableEq, Repr

/-- The wording of a fault in a document from a given origin. -/
def DocumentFault.message (origin : String) : DocumentFault → String
  | unreadable reason => s!"{origin}: cannot read model document: {reason}"
  | notYaml => s!"{origin}: invalid YAML/JSON in model document"
  | notMapping => s!"{origin}: model document must be a mapping"
  | noFile => s!"{origin}: missing required 'file' field"
  | sourceForm => s!"{origin}: 'source' must be a string"
  | nodesForm => s!"{origin}: 'nodes' must be a list"
  | suppressionsForm => s!"{origin}: 'suppressions' must be a list"
  | suppressionForm index => s!"{origin}: suppressions[{index}] must be a mapping"
  | suppressionFields index =>
    s!"{origin}: suppressions[{index}] needs a 'rule' name and a positive 'line'"

/-- What is wrong with a unit. -/
inductive Defect where
  /-- The node is reached more than once. -/
  | shared (node : Heading)
  | unknownKind (node : Heading)
  | foreignFile (node : Heading) (file : String)
  | inverted (node : Heading)
  | outsideParent (child parent : Heading)
  /-- The node stands after a later sibling; without a parent the siblings are the roots. -/
  | unordered (node : Heading) (parent : Option Heading)
  | overlapping (node previous : Heading)
  | node (path : NodePath) (fault : NodeFault)
  | document (origin : String) (fault : DocumentFault)
  deriving DecidableEq, Repr

/-- A sentence about a node, after where the node is. -/
def Heading.located (n : Heading) (sentence : Except LongInteger String) :
    Except LongInteger String := do
  let sentence ← sentence
  return (← n.span.toText) ++ ": " ++ sentence

/-- The wording of a defect; one of a node starts with where the node is. -/
def Defect.wording : Defect → Except LongInteger String
  | shared n => n.located do
    return s!"node {← n.toText} appears more than once (shared or cyclic subtree)"
  | unknownKind n => n.located <| .ok <|
    s!"unknown node kind '{n.kind}', must be one of " ++ quotedList (Kind.all.map Kind.name)
  | foreignFile n file => n.located <| .ok
    s!"node belongs to file '{n.span.file}', expected '{file}'"
  | inverted n => n.located (.ok "span ends before it starts")
  | outsideParent child parent => child.located do
    return s!"child {← child.toText} is not contained in parent {← parent.toText}"
  | unordered n parent => n.located do
    let owner ← parent.elim (.ok "unit root") Heading.toText
    return s!"children of {owner} are not in source order"
  | overlapping n previous => n.located do
    return s!"sibling {← n.toText} overlaps {← previous.toText}"
  | node path fault => .ok s!"{path.toText}: {fault.message}"
  | document origin fault => .ok (fault.message origin)

/-- The refusal of a unit (`MalformedModel`): what is wrong with it, and the words for that. -/
structure Malformed where
  defect : Defect
  message : String
  worded : defect.wording = .ok message
  deriving DecidableEq, Repr

/-- What a defect ends in: the refusal of the unit, when there are words for it. -/
def Defect.raised (d : Defect) : Stop Malformed :=
  match h : d.wording with
  | .ok message => .refused ⟨d, message, h⟩
  | .error _ => .longInteger

end ComponentLint

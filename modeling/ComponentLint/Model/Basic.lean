-- A unit: one source file as a checked forest of nodes, with its source
-- lines and its suppressions, and the questions that can be asked of it.
import ComponentLint.Model.Table
import ComponentLint.Source.Comment
import ComponentLint.Source.Suppression

namespace ComponentLint

open ComponentLint.Text

/-- One source file (`StructuralModel`): its nodes, the lines of its text if they are known, and its
suppressions. What the check of the nodes has noted down goes by their numbers in the walk: the
parent of each node, and the nodes by their spans. -/
structure Model where
  file : String
  roots : List Node
  lines : List String := []
  suppressions : List Suppression := []
  parents : List (Option Nat)
  bySpan : List (Span × Nat)
  deriving Repr

namespace Model

/-! ## Making a unit -/

/-- The unit that some rows of a table are the roots of. -/
def ofTable (t : NodeTable) (file : String) (roots : List (Fin t.size)) (lines : List String)
    (suppressions : List Suppression) : Except (Stop Malformed) Model := do
  let reg ← (t.check file roots).mapError Defect.raised
  return ⟨file, Tree.ofPreorder reg.nodes, lines, suppressions, reg.parents.map Prod.snd,
    reg.bySpan⟩

/-- The unit with the given trees at its top level. -/
def ofDrafts (file : String) (roots : List Draft) (lines : List String)
    (suppressions : List Suppression) : Except (Stop Malformed) Model :=
  ofTable (NodeTable.ofDrafts roots) file (NodeTable.rootsOf roots) lines suppressions

/-! ## Asking about its nodes -/

/-- The nodes in pre-order, each with the chain of nodes around it, innermost last. -/
def walk (m : Model) : List (Tree.Visit (Entry Kind)) := Tree.walk m.roots

/-- The number of nodes (`StructuralModel.__len__`). -/
def size (m : Model) : Nat := m.parents.length

/-- The node at a place of the walk. -/
def node? (m : Model) (place : Nat) : Option Node := (m.walk[place]?).map Tree.Visit.tree

/-- A node that someone holds: its place in the walk of a unit, if it has one there, and its
heading. -/
structure Handle where
  place : Option Nat
  heading : Heading
  deriving DecidableEq, Repr

/-- The refusal of a node that is not one of a unit's: the node and the words for it. -/
structure Foreign where
  node : Heading
  text : String
  worded : node.toText = .ok text
  deriving DecidableEq, Repr

def Foreign.message (f : Foreign) : String := quoted (f.text ++ " does not belong to this model")

/-- What asking about a foreign node ends in: its refusal, when there are words for it. -/
def Foreign.raised (node : Heading) : Stop Foreign :=
  match h : node.toText with
  | .ok text => .refused ⟨node, text, h⟩
  | .error _ => .longInteger

/-- The parent of a node of the unit, none for a top-level one (`StructuralModel.parent_of`). -/
def parentOf (m : Model) (h : Handle) : Except (Stop Foreign) (Option Node) :=
  match h.place.bind (m.parents[·]?) with
  | some parent => .ok (parent.bind m.node?)
  | none => .error (Foreign.raised h.heading)

/-- The innermost node with exactly the given span (`StructuralModel.lookup`). -/
def lookup (m : Model) (s : Span) : Option Node := (m.bySpan.lookup s).bind m.node?

/-- The innermost node that covers a position (`StructuralModel.node_at`). -/
def nodeAt (m : Model) (p : Position) : Option Node :=
  Tree.innermostAmong (fun e => e.span.covers p) m.roots

/-! ## Asking about its lines -/

/-- How many lines of a span hold code. -/
def measured (m : Model) (s : Span) : Int := Source.measure m.lines s

end Model

end ComponentLint

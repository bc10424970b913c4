-- The nodes of a document as a graph: each has a number, and a node refers
-- to those it holds by their numbers. An alias is the number of the node it
-- stands for, which may hold the alias itself.
import ComponentLint.Yaml.Node

namespace ComponentLint.Yaml

/-- What a node of a graph holds. -/
inductive Shape where
  | scalar (text : String)
  | sequence (items : List Nat)
  | mapping (pairs : List (Nat × Nat))
  deriving Repr, Inhabited

/-- A node of a graph. -/
structure Vertex where
  tag : Tag
  shape : Shape
  deriving Repr

/-- The nodes of a graph by their numbers. The first is the root. -/
abbrev Graph := Array Vertex

namespace Graph

/-- The tag of a node. -/
def tagOf (g : Graph) (id : Nat) : Tag := (g[id]?.map Vertex.tag).getD .other

/-- What a node holds. -/
def shapeOf (g : Graph) (id : Nat) : Shape := (g[id]?.map Vertex.shape).getD (.scalar "")

/-- The pairs of a mapping, none for another node. -/
def pairsOf (g : Graph) (id : Nat) : List (Nat × Nat) :=
  match g.shapeOf id with
  | .mapping pairs => pairs
  | _ => []

/-- Changes what a node holds. -/
def setShape (g : Graph) (id : Nat) (shape : Shape) : Graph :=
  g.modify id fun vertex => { vertex with shape }

/-- Changes the tag of a node. -/
def setTag (g : Graph) (id : Nat) (tag : Tag) : Graph :=
  g.modify id fun vertex => { vertex with tag }

end Graph

/-! ## Numbering -/

/-- The nodes numbered so far, and the numbers of those with names. -/
structure Numbering where
  graph : Graph := #[]
  names : List (String × Nat) := []

namespace Numbering

/-- Adds a node, with its name if it has one, and gives its number. -/
def add (s : Numbering) (anchor : Option String) (vertex : Vertex) : Nat × Numbering :=
  let id := s.graph.size
  (id, { graph := s.graph.push vertex
         names := (anchor.map fun a => (a, id)).toList ++ s.names })

/-- Fills in what a node holds. -/
def fill (s : Numbering) (id : Nat) (shape : Shape) : Numbering :=
  { s with graph := s.graph.setShape id shape }

mutual

/-- Numbers a node and those it holds. -/
def place (s : Numbering) : Node → Nat × Numbering
  | .alias name => ((s.names.lookup name).getD 0, s)
  | .scalar anchor tag text => s.add anchor ⟨tag, .scalar text⟩
  | .sequence anchor tag items =>
    let (id, s) := s.add anchor ⟨tag, .sequence []⟩
    let (ids, s) := placeItems s items
    (id, s.fill id (.sequence ids))
  | .mapping anchor tag pairs =>
    let (id, s) := s.add anchor ⟨tag, .mapping []⟩
    let (ids, s) := placePairs s pairs
    (id, s.fill id (.mapping ids))

/-- Numbers several nodes. -/
def placeItems (s : Numbering) : List Node → List Nat × Numbering
  | [] => ([], s)
  | n :: rest =>
    let (id, s) := place s n
    let (ids, s) := placeItems s rest
    (id :: ids, s)

/-- Numbers pairs of nodes. -/
def placePairs (s : Numbering) : List (Node × Node) → List (Nat × Nat) × Numbering
  | [] => ([], s)
  | (k, v) :: rest =>
    let (key, s) := place s k
    let (value, s) := place s v
    let (ids, s) := placePairs s rest
    ((key, value) :: ids, s)

end

end Numbering

/-- The graph of a node. -/
def Graph.ofNode (n : Node) : Graph := (Numbering.place {} n).2.graph

/-! ## Merging -/

namespace Graph

/-- The pairs before the first merge key, the value of that key, and the pairs behind it. -/
def splitAtMerge? (g : Graph) :
    List (Nat × Nat) → Option (List (Nat × Nat) × Nat × List (Nat × Nat))
  | [] => none
  | (k, v) :: rest =>
    if g.tagOf k = .merge then some ([], v, rest)
    else
      match splitAtMerge? g rest with
      | some (front, merged, back) => some ((k, v) :: front, merged, back)
      | none => none

/-- Makes the default signs among the keys of pairs ordinary texts. -/
def plainKeys (g : Graph) (pairs : List (Nat × Nat)) : Graph :=
  pairs.foldl (fun g (k, _) => if g.tagOf k = .value then g.setTag k .str else g) g

/-- The number of merge keys in a graph. -/
def mergeCount (g : Graph) : Nat :=
  g.foldl (fun n vertex =>
    match vertex.shape with
    | .mapping pairs => n + (pairs.filter fun (k, _) => g.tagOf k = .merge).length
    | _ => n) 0

/-- Replaces the merge keys of a mapping by the pairs that they bring in, which stand before its own
ones. Each step takes one merge key away for good, so their number bounds the steps. -/
def flattenWith : Nat → Nat → List (Nat × Nat) → Graph → Except Fault Graph
  | 0, _, _, _ => .error .invalid
  | fuel + 1, id, merged, g => do
    let pairs := g.pairsOf id
    match g.splitAtMerge? pairs with
    | none => return (g.plainKeys pairs).setShape id (.mapping (merged ++ pairs))
    | some (front, source, back) =>
      let g := (g.plainKeys front).setShape id (.mapping (front ++ back))
      match g.shapeOf source with
      | .mapping _ =>
        let g ← flattenWith fuel source [] g
        flattenWith fuel id (merged ++ g.pairsOf source) g
      | .sequence items =>
        let (found, g) ← items.foldlM
          (fun (found, g) item => do
            match g.shapeOf item with
            | .mapping _ =>
              let g ← flattenWith fuel item [] g
              return (g.pairsOf item :: found, g)
            | _ => throw .invalid)
          ([], g)
        flattenWith fuel id (merged ++ found.flatten) g
      | .scalar _ => throw .invalid

/-- Replaces the merge keys of a mapping by the pairs that they bring in. Of a sequence of mappings
the pairs of the last one come first. -/
def flatten (g : Graph) (id : Nat) : Except Fault Graph := flattenWith (g.mergeCount + 1) id [] g

end Graph

end ComponentLint.Yaml

-- The values of a graph. Scalars become values at once. A collection is first
-- put on a waiting list and filled when its turn comes, so that it can hold
-- itself; which fault of a document is found first follows from this order.
import ComponentLint.Yaml.Graph
import ComponentLint.Yaml.Scalar

namespace ComponentLint.Yaml

/-! ## Parts -/

/-- A part of a value: complete, or a collection by its number. -/
inductive Part where
  | whole (v : Value)
  | held (id : Nat)
  deriving Repr

/-- A key with a mark of which one it is: what is equal to nothing else is still the same as
itself. -/
structure Key where
  value : Value
  mark : Nat
  deriving Repr

/-- Whether two keys are the same. -/
def Key.same (a b : Key) : Bool := a.mark == b.mark || Value.sameKey a.value b.value

/-- What a collection holds. -/
inductive Filling where
  | list (items : List Part)
  | map (entries : List (Key × Part))
  | set (members : List Key)
  | pairs (items : List (Part × Part))
  deriving Repr

/-- Stores a part under a key. The first spelling of a key stays, and its last part. -/
def putEntry (key : Key) (part : Part) : List (Key × Part) → List (Key × Part)
  | [] => [(key, part)]
  | (k, p) :: rest => if k.same key then (k, part) :: rest else (k, p) :: putEntry key part rest

/-! ## Filling collections -/

/-- The state of building values: the graph, whose merge keys are replaced on the way, the part
that each node has become, and the collections in the order in which they are filled. -/
structure Building where
  graph : Graph
  made : Array (Option Part)
  waiting : Array Nat := #[]
  filled : Array (Option Filling)

/-- A step of building values. -/
abbrev Build := StateT Building (Except Fault)

namespace Build

/-- Whether a tag is one of a collection. -/
def isCollection (tag : Tag) : Bool :=
  tag = .seq || tag = .map || tag = .set || tag = .omap || tag = .pairs

/-- The text of a node that is meant to be a scalar. A mapping stands for the value under its
default sign. -/
def textOf (g : Graph) : Nat → Nat → Except Fault String
  | 0, _ => .error .bottomless
  | fuel + 1, id =>
    match g.shapeOf id with
    | .scalar text => .ok text
    | .mapping pairs =>
      match pairs.find? fun (k, _) => g.tagOf k = .value with
      | some (_, v) => textOf g fuel v
      | none => .error .invalid
    | .sequence _ => .error .invalid

/-- The value of a node that is meant to be a scalar. A point in time has to be written out. -/
def scalarOf (g : Graph) (id : Nat) : Except Fault Value := do
  let text ← textOf g (g.size + 1) id
  match g.tagOf id, g.shapeOf id with
  | .timestamp, .mapping _ => throw .timeMapping
  | tag, _ => scalarValue tag text

/-- The part that a node becomes; a collection is put on the waiting list. -/
def make (id : Nat) : Build Part := do
  match (← get).made[id]? with
  | some (some part) => return part
  | _ =>
    let g := (← get).graph
    let part ←
      if isCollection (g.tagOf id) then do
        modify fun b => { b with waiting := b.waiting.push id }
        pure (Part.held id)
      else
        match scalarOf g id with
        | .ok v => pure (Part.whole v)
        | .error fault => throw fault
    modify fun b => { b with made := b.made.setIfInBounds id (some part) }
    return part

/-- The key that a node becomes. All numbers that are none and spelled in the usual way are the
same one. -/
def makeKey (id : Nat) : Build Key := do
  match ← make id with
  | .held _ => throw Fault.invalid
  | .whole v =>
    let isNan := match (← get).graph.shapeOf id, v with
      | .scalar text, .float .nan => Text.lower (withoutBars text.toList) == nanWord
      | _, _ => false
    return ⟨v, if isNan then 0 else id + 1⟩

/-- The entries of a mapping, its merge keys replaced. -/
def entriesOf (id : Nat) : Build (List (Key × Part)) := do
  match (← get).graph.shapeOf id with
  | .mapping _ =>
    match (← get).graph.flatten id with
    | .error fault => throw fault
    | .ok graph =>
      modify fun b => { b with graph }
      (graph.pairsOf id).foldlM
        (fun entries (k, v) => do
          let key ← makeKey k
          let part ← make v
          return putEntry key part entries)
        []
  | _ => throw Fault.invalid

/-- The two parts of an item that is a mapping of one pair. -/
def pairOf (id : Nat) : Build (Part × Part) := do
  match (← get).graph.shapeOf id with
  | .mapping [(k, v)] =>
    let key ← make k
    let value ← make v
    return (key, value)
  | _ => throw Fault.invalid

/-- The items of a sequence. -/
def itemsOf (id : Nat) : Build (List Nat) := do
  match (← get).graph.shapeOf id with
  | .sequence items => return items
  | _ => throw Fault.invalid

/-- What a collection holds. -/
def fillingOf (id : Nat) : Build Filling := do
  match (← get).graph.tagOf id with
  | .seq => return .list (← (← itemsOf id).mapM make)
  | .map => return .map (← entriesOf id)
  | .set => return .set ((← entriesOf id).map Prod.fst)
  | _ => return .pairs (← (← itemsOf id).mapM pairOf)

/-- Fills the collections on the waiting list from a place on; each is on it once. -/
def fillFrom : Nat → Nat → Build Unit
  | 0, _ => return
  | fuel + 1, place => do
    match (← get).waiting[place]? with
    | none => return
    | some id =>
      let filling ← fillingOf id
      modify fun b => { b with filled := b.filled.setIfInBounds id (some filling) }
      fillFrom fuel (place + 1)

/-- Builds the part of the root, and fills all collections. -/
def root (size : Nat) : Build Part := do
  let part ← make 0
  fillFrom (size + 1) 0
  return part

end Build

/-! ## Putting values together -/

/-- The members of a set in the order they are listed in: integers from the least on, and all else
as it came. -/
def setOrder (members : List Value) : List Value :=
  let number : Value → Int
    | .int n => n
    | _ => 0
  members.mergeSort fun a b => number a ≤ number b

/-- The filled collections by their numbers. -/
abbrev Fillings := Array (Option Filling)

namespace Fillings

/-- What a collection holds. -/
def contents (fs : Fillings) (id : Nat) : Filling := (fs[id]?.bind fun f => f).getD (.list [])

/-- The collections among parts. -/
def heldAmong (parts : List Part) : List Nat :=
  parts.filterMap fun
    | .held id => some id
    | .whole _ => none

/-- The collections that a collection holds. -/
def heldBy (fs : Fillings) (id : Nat) : List Nat :=
  match fs.contents id with
  | .list items => heldAmong items
  | .map entries => heldAmong (entries.map Prod.snd)
  | .set _ => []
  | .pairs items => heldAmong (items.flatMap fun (k, v) => [k, v])

/-- A value in which no collection holds itself, with those already put together at hand. There is
none when the collections lie deeper in each other than there are of them. -/
def treeOf (fs : Fillings) : Nat → Part → StateT (Array (Option Value)) Option Value
  | _, .whole v => return v
  | 0, .held _ => failure
  | fuel + 1, .held id => do
    match (← get)[id]? with
    | some (some v) => return v
    | _ =>
      let v ← match fs.contents id with
        | .list items => do return Value.list (← items.mapM (treeOf fs fuel))
        | .map entries => do
          return .map (← entries.mapM fun (k, p) => do return (k.value, ← treeOf fs fuel p))
        | .set members => pure (.set (setOrder (members.map Key.value)))
        | .pairs items => do
          return .list (← items.mapM fun (k, v) => do
            return .tuple [← treeOf fs fuel k, ← treeOf fs fuel v])
      modify fun known => known.setIfInBounds id (some v)
      return v

/-- The collections that can be reached from some, added to those seen before. -/
def reach (fs : Fillings) : Nat → List Nat → List Nat → List Nat
  | 0, _, seen => seen
  | _ + 1, [], seen => seen
  | fuel + 1, id :: rest, seen =>
    if seen.contains id then reach fs fuel rest seen
    else reach fs fuel (fs.heldBy id ++ rest) (id :: seen)

/-- The collections that hold themselves. -/
def loops (fs : Fillings) : List Nat :=
  let ids := List.range fs.size
  let steps := ids.foldl (fun n id => n + (fs.heldBy id).length + 1) 1
  ids.filter fun id => (fs.reach steps (fs.heldBy id) []).contains id

/-- The form of a collection. -/
def formOf (fs : Fillings) (id : Nat) : Collection :=
  match fs.contents id with
  | .map _ => .map
  | _ => .list

/-- A value in which the collections that hold themselves are knots, inside of some of them. The
pairs of such a collection have labels beyond the numbers of all collections. -/
def knotOf (fs : Fillings) (loops : List Nat) : Nat → List Nat → Part → Value
  | _, _, .whole v => v
  | 0, _, .held _ => .null
  | fuel + 1, inside, .held id =>
    if inside.contains id then .again id (fs.formOf id)
    else
      let holdsItself := loops.contains id
      let deeper := knotOf fs loops fuel (if holdsItself then id :: inside else inside)
      let tied (label : Nat) (body : Value) : Value :=
        if holdsItself then .knot label body else body
      tied id <| match fs.contents id with
        | .list items => .list (items.map deeper)
        | .map entries => .map (entries.map fun (k, p) => (k.value, deeper p))
        | .set members => .set (setOrder (members.map Key.value))
        | .pairs items => .list (items.zipIdx.map fun ((k, v), i) =>
            tied (fs.size * (i + 1) + id) (.tuple [deeper k, deeper v]))

/-- The value of a part. -/
def valueOf (fs : Fillings) (part : Part) : Value :=
  match (fs.treeOf fs.size part).run (Array.replicate fs.size none) with
  | some (v, _) => v
  | none => fs.knotOf fs.loops (fs.size + 1) [] part

end Fillings

/-- The value of a graph. -/
def Graph.value (g : Graph) : Except Fault Value := do
  let start : Building :=
    { graph := g, made := Array.replicate g.size none, filled := Array.replicate g.size none }
  let (part, b) ← (Build.root g.size).run start
  return Fillings.valueOf b.filled part

/-- The value of a YAML text: null when it is empty. Of a repeated key the last value counts; a
merge key brings in the entries of other mappings, which the mapping's own entries override. -/
def load (text : List Char) : Except Fault Value := do
  match ← Node.ofText text with
  | some n => (Graph.ofNode n).value
  | none => return .null

end ComponentLint.Yaml

-- Trees with any number of children, and the ways to walk a forest of them:
-- in pre-order with the chain of ancestors of each node, over one subtree,
-- and down to the innermost node with a property.
namespace ComponentLint

/-- A tree: a value and the trees below it, in order. -/
inductive Tree (α : Type) where
  | node (value : α) (children : List (Tree α))
  deriving Repr

namespace Tree

variable {α : Type}

/-- The value at the root. -/
def value : Tree α → α
  | node v _ => v

/-- The trees right below the root. -/
def children : Tree α → List (Tree α)
  | node _ ts => ts

mutual

/-- How many nodes a tree has. -/
def size : Tree α → Nat
  | node _ ts => forestSize ts + 1

/-- How many nodes the trees of a forest have together. -/
def forestSize : List (Tree α) → Nat
  | [] => 0
  | t :: ts => size t + forestSize ts

end

theorem size_eq (t : Tree α) : t.size = forestSize t.children + 1 := by
  cases t
  simp [size, children]

theorem forestSize_append (ts us : List (Tree α)) :
    forestSize (ts ++ us) = forestSize ts + forestSize us := by
  induction ts with
  | nil => simp [forestSize]
  | cons t ts ih => simp [forestSize, ih]; omega

theorem forestSize_reverse (ts : List (Tree α)) : forestSize ts.reverse = forestSize ts := by
  induction ts with
  | nil => rfl
  | cons t ts ih => simp [forestSize_append, forestSize, ih]; omega

/-! ## Walks -/

/-- A node met on a walk: the tree it is the root of, and the trees around it, innermost last. -/
structure Visit (α : Type) where
  tree : Tree α
  ancestors : List (Tree α)
  deriving Repr

/-- The number of nodes still to be walked. -/
def pendingSize (agenda : List (Visit α)) : Nat := forestSize (agenda.map Visit.tree)

theorem pendingSize_children (t : Tree α) (chain : List (Tree α)) :
    pendingSize (t.children.map (Visit.mk · chain)) = forestSize t.children := by
  simp [pendingSize, Function.comp_def]

/-- Walks the trees of an agenda one node at a time; the children of a node come next. -/
def walkAgenda : List (Visit α) → List (Visit α)
  | [] => []
  | v :: rest =>
    v :: walkAgenda (v.tree.children.map (Visit.mk · (v.ancestors ++ [v.tree])) ++ rest)
termination_by agenda => pendingSize agenda
decreasing_by
  have h := pendingSize_children v.tree (v.ancestors ++ [v.tree])
  simp only [pendingSize, List.map_append, forestSize_append, List.map_cons, forestSize,
    size_eq v.tree] at *
  omega

/-- The nodes of a forest in pre-order, each with its ancestors (`StructuralModel.walk`). -/
def walk (roots : List (Tree α)) : List (Visit α) := walkAgenda (roots.map (Visit.mk · []))

/-- The trees of an agenda and all below them, one node at a time. -/
def subtreesAgenda : List (Tree α) → List (Tree α)
  | [] => []
  | t :: rest => t :: subtreesAgenda (t.children ++ rest)
termination_by agenda => forestSize agenda
decreasing_by
  simp only [forestSize_append, forestSize, size_eq t]
  omega

/-- A tree and all trees below it, in pre-order (`Node.iter_subtree`). -/
def subtrees (t : Tree α) : List (Tree α) := subtreesAgenda [t]

/-- The forest with the given values in pre-order, each with how many children it has. -/
def ofPreorder : List (α × Nat) → List (Tree α)
  | [] => []
  | (v, n) :: rest => .node v ((ofPreorder rest).take n) :: (ofPreorder rest).drop n

mutual

/-- The innermost tree that a property of values leads to, from the root down. -/
def innermost (p : α → Bool) : Tree α → Option (Tree α)
  | node v ts => if p v then (innermostAmong p ts).or (some (node v ts)) else none

/-- The innermost tree that a property leads to, in the first tree whose root has it. -/
def innermostAmong (p : α → Bool) : List (Tree α) → Option (Tree α)
  | [] => none
  | t :: ts => (innermost p t).or (innermostAmong p ts)

end

end Tree

end ComponentLint

-- Forests and their walk. A forest is empty, or a first tree with the forest
-- below its root and the forest of the trees after it; induction follows
-- that shape. The walk with an agenda is the plain recursive pre-order.
import ComponentLint.Model.Node
import Mathlib.Data.List.Forall2

namespace ComponentLint.Tree

variable {α : Type}

/-! ## Induction -/

/-- Induction on forests: the trees below the first root, then the trees beside it. -/
@[elab_as_elim]
theorem forest_induction {motive : List (Tree α) → Prop} (nil : motive [])
    (cons : ∀ v ts us, motive ts → motive us → motive (node v ts :: us))
    (ts : List (Tree α)) : motive ts := by
  induction hn : forestSize ts using Nat.strongRecOn generalizing ts with
  | _ n ih =>
    rcases ts with _ | ⟨⟨v, ts⟩, us⟩
    · exact nil
    · simp only [forestSize, size] at hn
      exact cons v ts us (ih _ (by omega) ts rfl) (ih _ (by omega) us rfl)

/-! ## Pre-order -/

mutual

/-- The nodes of a tree in pre-order: the root, then those below it, with the root at the end of
their chains. -/
def visits (chain : List (Tree α)) : Tree α → List (Visit α)
  | node v ts => ⟨node v ts, chain⟩ :: visitsAmong (chain ++ [node v ts]) ts

/-- The nodes of the trees of a forest in pre-order. -/
def visitsAmong (chain : List (Tree α)) : List (Tree α) → List (Visit α)
  | [] => []
  | t :: ts => visits chain t ++ visitsAmong chain ts

end

theorem visitsAmong_cons (chain : List (Tree α)) (v : α) (ts us : List (Tree α)) :
    visitsAmong chain (node v ts :: us) =
      ⟨node v ts, chain⟩ :: visitsAmong (chain ++ [node v ts]) ts ++ visitsAmong chain us := by
  simp only [visitsAmong, visits]

theorem mem_visitsAmong_cons {chain : List (Tree α)} {w : α} {ts us : List (Tree α)}
    {v : Visit α} :
    v ∈ visitsAmong chain (node w ts :: us) ↔
      v = ⟨node w ts, chain⟩ ∨ v ∈ visitsAmong (chain ++ [node w ts]) ts ∨
        v ∈ visitsAmong chain us := by
  rw [visitsAmong_cons, List.cons_append, List.mem_cons, List.mem_append]

/-- An agenda that starts with the trees of a forest walks all of that forest first. -/
theorem walkAgenda_map_append (ts : List (Tree α)) (chain : List (Tree α))
    (rest : List (Visit α)) :
    walkAgenda (ts.map (Visit.mk · chain) ++ rest) = visitsAmong chain ts ++ walkAgenda rest := by
  induction ts using forest_induction generalizing chain rest with
  | nil => simp [visitsAmong]
  | cons v ts us ihBelow ihBeside =>
    rw [visitsAmong_cons, List.map_cons, List.cons_append, walkAgenda]
    simp only [children]
    rw [ihBelow, ihBeside]
    simp

/-- The walk is the recursive pre-order. -/
theorem walk_eq_visitsAmong (roots : List (Tree α)) : walk roots = visitsAmong [] roots := by
  have h := walkAgenda_map_append roots [] []
  simpa [walkAgenda, walk] using h

/-- An agenda that starts with the trees of a forest goes through all of that forest first. -/
theorem subtreesAgenda_append (chain ts rest : List (Tree α)) :
    subtreesAgenda (ts ++ rest) =
      (visitsAmong chain ts).map Visit.tree ++ subtreesAgenda rest := by
  induction ts using forest_induction generalizing chain rest with
  | nil => simp [visitsAmong]
  | cons v ts us ihBelow ihBeside =>
    rw [visitsAmong_cons, List.cons_append, subtreesAgenda]
    simp only [children]
    rw [ihBelow (chain ++ [node v ts]), ihBeside chain]
    simp

/-- All trees of a forest are those that a walk of it meets. -/
theorem subtreesAgenda_eq (chain ts : List (Tree α)) :
    subtreesAgenda ts = (visitsAmong chain ts).map Visit.tree := by
  have h := subtreesAgenda_append chain ts []
  rwa [List.append_nil, subtreesAgenda, List.append_nil] at h

theorem subtreesAgenda_cons (v : α) (ts us : List (Tree α)) :
    subtreesAgenda (node v ts :: us) = node v ts :: subtreesAgenda ts ++ subtreesAgenda us := by
  rw [subtreesAgenda, children, subtreesAgenda_append [], ← subtreesAgenda_eq, List.cons_append]

/-- The subtrees of a tree are the tree and those that a walk of its children meets. -/
theorem subtrees_eq_cons (chain : List (Tree α)) (t : Tree α) :
    t.subtrees = t :: (visitsAmong chain t.children).map Visit.tree := by
  rw [subtrees, subtreesAgenda, subtreesAgenda_append chain, subtreesAgenda, List.append_nil]

/-- What is below a node that a walk meets, the walk meets too, with the node around it. -/
theorem mem_visits_of_below {chain ts : List (Tree α)} {v w : Visit α}
    (hv : v ∈ visitsAmong chain ts)
    (hw : w ∈ visitsAmong (v.ancestors ++ [v.tree]) v.tree.children) :
    w ∈ visitsAmong chain ts := by
  induction ts using forest_induction generalizing chain with
  | nil => simp [visitsAmong] at hv
  | cons u ts us ihBelow ihBeside =>
    rw [mem_visitsAmong_cons] at hv ⊢
    rcases hv with rfl | hv | hv
    · exact Or.inr (Or.inl hw)
    · exact Or.inr (Or.inl (ihBelow hv))
    · exact Or.inr (Or.inr (ihBeside hv))

theorem subtree_of_mem_visits {chain ts : List (Tree α)} {v : Visit α} {t : Tree α}
    (h : v ∈ visitsAmong chain ts) (ht : t ∈ v.tree.subtrees) :
    ∃ w ∈ visitsAmong chain ts, w.tree = t := by
  rw [subtrees_eq_cons (v.ancestors ++ [v.tree]), List.mem_cons, List.mem_map] at ht
  rcases ht with rfl | ⟨w, hw, rfl⟩
  · exact ⟨v, h, rfl⟩
  · exact ⟨w, mem_visits_of_below h hw, rfl⟩

/-- The walk meets as many nodes as there are. -/
theorem length_visitsAmong (chain ts : List (Tree α)) :
    (visitsAmong chain ts).length = forestSize ts := by
  induction ts using forest_induction generalizing chain with
  | nil => rfl
  | cons v ts us ihBelow ihBeside =>
    rw [visitsAmong_cons]
    simp only [List.cons_append, List.length_cons, List.length_append, ihBelow, ihBeside,
      forestSize, size]
    omega

theorem length_subtreesAgenda (ts : List (Tree α)) :
    (subtreesAgenda ts).length = forestSize ts := by
  rw [subtreesAgenda_eq [], List.length_map, length_visitsAmong]

/-- The chain of every node of the walk goes on from the chain that the walk starts with. -/
theorem chain_prefix_of_mem_visits {chain ts : List (Tree α)} {v : Visit α}
    (h : v ∈ visitsAmong chain ts) : chain <+: v.ancestors := by
  induction ts using forest_induction generalizing chain with
  | nil => simp [visitsAmong] at h
  | cons w ts us ihBelow ihBeside =>
    rw [mem_visitsAmong_cons] at h
    rcases h with rfl | h | h
    · exact List.prefix_rfl
    · exact (List.prefix_append _ _).trans (ihBelow h)
    · exact ihBeside h

/-- What is around a node has more nodes than it. -/
theorem size_lt_of_mem_ancestors {chain ts : List (Tree α)} {v : Visit α}
    (hchain : ∀ c ∈ chain, forestSize ts < c.size) (h : v ∈ visitsAmong chain ts) :
    ∀ c ∈ v.ancestors, v.tree.size < c.size := by
  induction ts using forest_induction generalizing chain with
  | nil => simp [visitsAmong] at h
  | cons w ts us ihBelow ihBeside =>
    simp only [forestSize, size] at hchain
    rw [mem_visitsAmong_cons] at h
    rcases h with rfl | h | h
    · intro c hc
      have := hchain c hc
      simp only [size]
      omega
    · refine ihBelow ?_ h
      intro c hc
      rcases List.mem_append.mp hc with hc | hc
      · have := hchain c hc
        omega
      · rw [List.mem_singleton.mp hc, size]
        omega
    · refine ihBeside ?_ h
      intro c hc
      have := hchain c hc
      omega

/-! ## Pre-order as a list

A forest can be told by the values of its nodes in pre-order, each with how many children it has,
and the parent of a node by its number. -/

/-- The value at the root of a tree and how many children it has. -/
def tally (t : Tree α) : α × Nat := (t.value, t.children.length)

/-- The forest comes back from its list, and what follows in the list stands beside it. -/
theorem ofPreorder_append (ts : List (Tree α)) (rest : List (α × Nat)) :
    ofPreorder ((subtreesAgenda ts).map tally ++ rest) = ts ++ ofPreorder rest := by
  induction ts using forest_induction generalizing rest with
  | nil => rw [subtreesAgenda, List.map_nil, List.nil_append, List.nil_append]
  | cons v ts us ihBelow ihBeside =>
    rw [subtreesAgenda_cons, List.map_append, List.map_cons, List.cons_append, List.cons_append,
      List.append_assoc, tally, ofPreorder, ihBelow, ihBeside]
    simp [children, value]

theorem ofPreorder_tally (ts : List (Tree α)) :
    ofPreorder ((subtreesAgenda ts).map tally) = ts := by
  have h := ofPreorder_append ts []
  rwa [List.append_nil, ofPreorder, List.append_nil] at h

/-- The numbers of the parents in a forest whose nodes are numbered from `first` on in pre-order,
the given one for the roots. -/
def parentNumbers (parent : Option Nat) (first : Nat) : List (Tree α) → List (Option Nat)
  | [] => []
  | node _ ts :: us =>
    parent :: parentNumbers (some first) (first + 1) ts
      ++ parentNumbers parent (first + 1 + forestSize ts) us
termination_by ts => forestSize ts
decreasing_by
  · simp only [forestSize, size]
    omega
  · simp only [forestSize, size]
    omega

theorem length_parentNumbers (parent : Option Nat) (first : Nat) (ts : List (Tree α)) :
    (parentNumbers parent first ts).length = forestSize ts := by
  induction ts using forest_induction generalizing parent first with
  | nil => rw [parentNumbers, forestSize, List.length_nil]
  | cons v ts us ihBelow ihBeside =>
    rw [parentNumbers, List.length_append, List.length_cons, ihBelow, ihBeside, forestSize, size]

/-- A number tells the parent of what stands within a chain: it is the number of the innermost node
of the chain, and there is none when the chain is empty. -/
def TellsParent (walk : List (Visit α)) (parent : Option Nat) (chain : List (Tree α)) : Prop :=
  (parent.bind fun i => (walk[i]?).map Visit.tree) = chain.getLast?

/-- Where a forest stands in a walk, its numbers tell the parents of its nodes. -/
theorem parentNumbers_tell {walk before after : List (Visit α)} {chain ts : List (Tree α)}
    {parent : Option Nat} (hwalk : walk = before ++ visitsAmong chain ts ++ after)
    (hparent : TellsParent walk parent chain) :
    List.Forall₂ (fun p v => TellsParent walk p v.ancestors)
      (parentNumbers parent before.length ts) (visitsAmong chain ts) := by
  induction ts using forest_induction generalizing before after chain parent with
  | nil => rw [parentNumbers, visitsAmong]; exact .nil
  | cons v ts us ihBelow ihBeside =>
    rw [visitsAmong_cons] at hwalk ⊢
    rw [parentNumbers]
    have hroot : TellsParent walk (some before.length) (chain ++ [node v ts]) := by
      simp [TellsParent, hwalk]
    -- The nodes below start right behind the root, those beside it behind all of them.
    have hnext : walk = (before ++ [⟨node v ts, chain⟩]) ++ visitsAmong (chain ++ [node v ts]) ts ++
        (visitsAmong chain us ++ after) := by
      simp [hwalk]
    have hlater : walk = (before ++ ⟨node v ts, chain⟩ :: visitsAmong (chain ++ [node v ts]) ts) ++
        visitsAmong chain us ++ after := by
      simp [hwalk]
    have hbelow := ihBelow hnext hroot
    have hbeside := ihBeside hlater hparent
    rw [List.length_append, List.length_singleton] at hbelow
    rw [List.length_append, List.length_cons, length_visitsAmong, Nat.add_comm (forestSize ts),
      ← Nat.add_assoc] at hbeside
    refine List.rel_append ?_ hbeside
    exact .cons hparent hbelow

end ComponentLint.Tree

-- The ways through the nodes of a unit. The walk, the number of nodes, the
-- parent of a node and the nodes below one are found each in its own way, two
-- of them from what the check has noted down; in an accepted unit they tell of
-- the same nodes in the same order.
import ComponentLint.Proofs.InnermostNode

namespace ComponentLint

namespace Tree

variable {α : Type}

/-! ## Standing in a forest -/

/-- A tree stands in a forest within a chain of trees, innermost last: it is one of the roots and
the chain is empty, or it is a child of the last of the chain, which stands within the others. -/
inductive Stands (roots : List (Tree α)) : List (Tree α) → Tree α → Prop
  | root {t : Tree α} (top : t ∈ roots) : Stands roots [] t
  | child {chain : List (Tree α)} {p t : Tree α} (around : Stands roots chain p)
      (below : t ∈ p.children) : Stands roots (chain ++ [p]) t

/-- What stands among the children of a root stands within that root. -/
theorem Stands.within {roots : List (Tree α)} {r : Tree α} (hr : r ∈ roots)
    {chain : List (Tree α)} {t : Tree α} (h : Stands r.children chain t) :
    Stands roots (r :: chain) t := by
  induction h with
  | root top => exact .child (.root hr) top
  | child _ below ih => exact .child ih below

theorem mem_visits_of_mem {chain ts : List (Tree α)} {t : Tree α} (h : t ∈ ts) :
    ⟨t, chain⟩ ∈ visitsAmong chain ts := by
  induction ts with
  | nil => cases h
  | cons u us ih =>
    obtain ⟨v, below⟩ := u
    rw [mem_visitsAmong_cons]
    rcases List.mem_cons.mp h with rfl | h
    · exact Or.inl rfl
    · exact Or.inr (Or.inr (ih h))

/-- A tree around a node of the walk is met by the walk itself, and the node below it. -/
theorem exists_below_of_mem_ancestors {chain ts : List (Tree α)} {w : Visit α} {t : Tree α}
    (hw : w ∈ visitsAmong chain ts) (ht : t ∈ w.ancestors) (houter : t ∉ chain) :
    ∃ x ∈ visitsAmong chain ts, x.tree = t ∧
      w ∈ visitsAmong (x.ancestors ++ [x.tree]) x.tree.children := by
  induction ts using forest_induction generalizing chain with
  | nil => simp [visitsAmong] at hw
  | cons v ts us ihBelow ihBeside =>
    rw [mem_visitsAmong_cons] at hw
    rcases hw with rfl | hw | hw
    · exact absurd ht houter
    · by_cases hroot : t = node v ts
      · exact ⟨⟨node v ts, chain⟩, mem_visits_of_mem List.mem_cons_self, hroot.symm, hw⟩
      · obtain ⟨x, hx, hxt, hbelow⟩ := ihBelow hw (by simp [houter, hroot])
        exact ⟨x, mem_visitsAmong_cons.mpr (Or.inr (Or.inl hx)), hxt, hbelow⟩
    · obtain ⟨x, hx, hxt, hbelow⟩ := ihBeside hw houter
      exact ⟨x, mem_visitsAmong_cons.mpr (Or.inr (Or.inr hx)), hxt, hbelow⟩

end Tree

/-! ## Rows -/

/-- A checked node without its children, its kind a name again. -/
def Entry.submitted (e : Entry Kind) : Entry String := { e with kind := e.kind.name }

namespace NodeTable

variable {t : NodeTable} {file : String}

/-- Following links meets no row twice. -/
theorem Follows.nodup {links met rows : List (Fin t.size)} {forest : List Node}
    (h : Follows t file links met forest rows) : rows.Nodup := by
  induction h with
  | nil => exact List.nodup_nil
  | @cons i rest met rowsBelow rowsAfter e below after fresh passes down along ihDown ihAlong =>
    have hbelow := explored_of_follows down
    have hafter := explored_of_follows along
    have hlater : ∀ j ∈ rowsAfter, j ∉ met ++ [i] ++ rowsBelow :=
      fun j hj => hafter.fresh j ((hafter.mem_rows j).mp hj)
    rw [List.cons_append, List.nodup_cons, List.nodup_append]
    refine ⟨?_, ihDown, ihAlong, ?_⟩
    · rw [List.mem_append]
      rintro (hi | hi)
      · exact hbelow.fresh i ((hbelow.mem_rows i).mp hi) (by simp)
      · exact hlater i hi (by simp)
    · rintro j hj k hk rfl
      exact hlater j hk (List.mem_append_right _ hj)

end NodeTable

/-- The parents that the check has noted are those of the nodes on the walk. -/
theorem Model.Accepted.parents_tell {m : Model} (hm : m.Accepted) :
    List.Forall₂ (fun p v => Tree.TellsParent m.walk p v.ancestors) m.parents m.walk := by
  have hnoted : m.parents = Tree.parentNumbers none 0 m.roots :=
    congrArg Model.parents hm.eq_ofForest.2
  have hwalk : m.walk = [] ++ Tree.visitsAmong [] m.roots ++ [] := by
    rw [List.nil_append, List.append_nil]
    exact Tree.walk_eq_visitsAmong m.roots
  have hroots : Tree.TellsParent m.walk none [] := rfl
  have htell := Tree.parentNumbers_tell hwalk hroots
  rw [List.nil_append, List.append_nil] at hwalk
  rwa [← hwalk, List.length_nil, ← hnoted] at htell

theorem Model.Accepted.parentOf_eq {m : Model} (hm : m.Accepted) (h : Model.Handle) :
    m.parentOf h = match h.place.bind (m.walk[·]?) with
      | some v => .ok v.ancestors.getLast?
      | none => .error (Model.Foreign.raised h.heading) := by
  unfold Model.parentOf
  cases h.place with
  | none => rfl
  | some i =>
    rw [Option.bind_some, Option.bind_some]
    have hlength := hm.parents_tell.length_eq
    by_cases hi : i < m.walk.length
    · have htells := List.Forall₂.get hm.parents_tell (hlength ▸ hi) hi
      rw [List.getElem?_eq_getElem (hlength ▸ hi), List.getElem?_eq_getElem hi]
      exact congrArg Except.ok htells
    · rw [List.getElem?_eq_none (by omega), List.getElem?_eq_none (by omega)]

end ComponentLint

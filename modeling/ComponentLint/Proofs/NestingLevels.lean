-- How deeply a node nests. The levels are counted with an agenda of nodes; what
-- comes out is the recursive maximum over the children, and that is the
-- greatest number of levels on any way down from the node.
import ComponentLint.Check.Body
import ComponentLint.Proofs.Forest
import Mathlib.Order.Bounds.Basic

namespace ComponentLint.Check

/-! ## The recursive maximum -/

mutual

/-- The most levels on a way down that starts with a node. -/
def levels : Node → Nat
  | .node e ts => (if nests e.kind then 1 else 0) + levelsBelow ts

/-- The most levels on a way down that starts with one of several nodes. -/
def levelsBelow : List Node → Nat
  | [] => 0
  | t :: ts => max (levels t) (levelsBelow ts)

end

theorem levelsTo_add (n : Node) (above : Nat) :
    levelsTo n above + levelsBelow n.children = above + levels n := by
  obtain ⟨e, ts⟩ := n
  have hkind : (Tree.node e ts).kind = e.kind := rfl
  unfold levelsTo levels
  rw [hkind]
  simp only [Tree.children]
  split <;> omega

theorem add_levelsBelow_le_iff (ts : List Node) (above k : Nat) :
    above + levelsBelow ts ≤ k ↔ above ≤ k ∧ ∀ t ∈ ts, above + levels t ≤ k := by
  induction ts with
  | nil => simp [levelsBelow]
  | cons t ts ih =>
    rw [List.forall_mem_cons, levelsBelow, ← and_assoc, and_right_comm, ← ih]
    omega

/-! ## The agenda -/

/-- An agenda leads to no more than so many levels when none of its nodes does. -/
theorem deepest_le_iff (agenda : List (Node × Nat)) (most k : Nat) :
    deepest agenda most ≤ k ↔ most ≤ k ∧ ∀ p ∈ agenda, p.2 + levels p.1 ≤ k := by
  fun_induction deepest agenda most with
  | case1 most => simp
  | case2 n above rest most ih =>
    -- A node is taken off the agenda and its children, with its own level above them, stand for it.
    have hnode : above + levels n ≤ k ↔
        levelsTo n above ≤ k ∧ ∀ t ∈ n.children, levelsTo n above + levels t ≤ k := by
      rw [← add_levelsBelow_le_iff, levelsTo_add]
    rw [ih, Nat.max_le, List.forall_mem_cons, hnode]
    simp [or_imp, forall_and, and_assoc]

theorem maxNesting_eq (n : Node) : maxNesting n = levelsBelow n.children := by
  apply eq_of_forall_ge_iff
  intro k
  have hbelow := add_levelsBelow_le_iff n.children 0 k
  rw [Nat.zero_add] at hbelow
  unfold maxNesting
  rw [deepest_le_iff, hbelow]
  simp

/-! ## Ways down -/

/-- Ways down from some nodes: each next node of the way is a child of the one before it. -/
inductive Descends : List Node → List Node → Prop
  /-- A way may end anywhere. -/
  | stop (ts : List Node) : Descends ts []
  | step {ts : List Node} {t : Node} {way : List Node} (mem : t ∈ ts)
      (below : Descends t.children way) : Descends ts (t :: way)

/-- The levels on a way. -/
def levelsOn (way : List Node) : Nat := way.countP fun n => nests n.kind

theorem levelsOn_cons (t : Node) (way : List Node) :
    levelsOn (t :: way) = (if nests t.kind then 1 else 0) + levelsOn way := by
  unfold levelsOn
  rw [List.countP_cons, Nat.add_comm]

theorem levels_le_levelsBelow {ts : List Node} {t : Node} (h : t ∈ ts) :
    levels t ≤ levelsBelow ts := by
  have hmost := (add_levelsBelow_le_iff ts 0 _).mp (Nat.le_refl _)
  have := hmost.2 t h
  omega

theorem Descends.levelsOn_le {ts way : List Node} (h : Descends ts way) :
    levelsOn way ≤ levelsBelow ts := by
  induction h with
  | stop ts => simp [levelsOn]
  | @step ts t way mem below ih =>
    obtain ⟨e, us⟩ := t
    rw [levelsOn_cons]
    calc (if nests e.kind then 1 else 0) + levelsOn way
        ≤ (if nests e.kind then 1 else 0) + levelsBelow us := Nat.add_le_add_left ih _
      _ = levels (.node e us) := by rw [levels]
      _ ≤ levelsBelow ts := levels_le_levelsBelow mem

theorem Descends.of_cons {ts way : List Node} (t : Node) (h : Descends ts way) :
    Descends (t :: ts) way := by
  cases h with
  | stop => exact .stop _
  | step mem below => exact .step (List.mem_cons_of_mem _ mem) below

theorem exists_descends (ts : List Node) :
    ∃ way, Descends ts way ∧ levelsOn way = levelsBelow ts := by
  induction ts using Tree.forest_induction with
  | nil => exact ⟨[], .stop _, rfl⟩
  | cons e ts us ihBelow ihBeside =>
    rw [levelsBelow]
    by_cases hfirst : levelsBelow us ≤ levels (.node e ts)
    · obtain ⟨way, hway, hlevels⟩ := ihBelow
      refine ⟨.node e ts :: way, .step List.mem_cons_self hway, ?_⟩
      rw [max_eq_left hfirst, levelsOn_cons, hlevels, levels]
      rfl
    · obtain ⟨way, hway, hlevels⟩ := ihBeside
      refine ⟨way, hway.of_cons _, ?_⟩
      rw [hlevels]
      omega

/-- The recursive maximum is the greatest number of levels on any way down. -/
theorem isGreatest_levelsBelow (ts : List Node) :
    IsGreatest {k | ∃ way, Descends ts way ∧ levelsOn way = k} (levelsBelow ts) := by
  constructor
  · exact exists_descends ts
  · rintro k ⟨way, hway, rfl⟩
    exact hway.levelsOn_le

end ComponentLint.Check

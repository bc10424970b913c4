-- Tables of linked nodes. The check takes the rows of an agenda one at a time
-- and ends at every table, also at one with shared or cyclic links. It goes
-- well exactly when the reachable rows make a forest whose nodes keep the
-- rules; then it has gone through that forest in pre-order, and what it has
-- noted down is what there is to be told of the forest.
import ComponentLint.Model.Basic
import ComponentLint.Proofs.Forest
import ComponentLint.Proofs.NodeRules
import Mathlib.Data.List.FinRange
import Mathlib.Logic.ExistsUnique

namespace ComponentLint

/-! ## What is noted down about a forest -/

/-- The spans of some trees with their numbers from `first` on, the last one first. -/
def numberedSpans (first : Nat) (trees : List Node) : List (Span × Nat) :=
  ((trees.map Tree.span).zipIdx first).reverse

namespace Register

variable {n : Nat}

@[ext]
theorem ext {reg reg' : Register n} (parents : reg.parents = reg'.parents)
    (bySpan : reg.bySpan = reg'.bySpan) (nodes : reg.nodes = reg'.nodes) : reg = reg' := by
  cases reg
  cases reg'
  simp_all

/-- The rows that have been met, in order. -/
def rows (reg : Register n) : List (Fin n) := reg.parents.map Prod.fst

theorem has_eq_true_iff {reg : Register n} {i : Fin n} : reg.has i = true ↔ i ∈ reg.rows := by
  simp [has, rows, List.any_eq_true]

/-- A register in which a forest has been noted as well, met in the given rows below a parent. -/
def extend (reg : Register n) (parent : Option Nat) (rows : List (Fin n)) (forest : List Node) :
    Register n where
  parents := reg.parents ++ rows.zip (Tree.parentNumbers parent reg.next forest)
  bySpan := numberedSpans reg.next (Tree.subtreesAgenda forest) ++ reg.bySpan
  nodes := reg.nodes ++ (Tree.subtreesAgenda forest).map Tree.tally

theorem extend_nil (reg : Register n) (parent : Option Nat) : reg.extend parent [] [] = reg := by
  ext1
  · simp [extend]
  · simp [extend, numberedSpans, Tree.subtreesAgenda]
  · simp [extend, Tree.subtreesAgenda]

theorem rows_add (reg : Register n) (i : Fin n) (parent : Option Nat) (e : Entry Kind)
    (children : Nat) : (reg.add i parent e children).rows = reg.rows ++ [i] := by
  simp [add, rows]

theorem next_add (reg : Register n) (i : Fin n) (parent : Option Nat) (e : Entry Kind)
    (children : Nat) : (reg.add i parent e children).next = reg.next + 1 := by
  simp [add, next]

section

variable {rows : List (Fin n)} {forest : List Node} (h : rows.length = Tree.forestSize forest)
include h

theorem rows_extend (reg : Register n) (parent : Option Nat) :
    (reg.extend parent rows forest).rows = reg.rows ++ rows := by
  have hlength : rows.length ≤ (Tree.parentNumbers parent reg.next forest).length := by
    rw [Tree.length_parentNumbers, h]
  simp only [extend, Register.rows, List.map_append, List.map_fst_zip hlength]

theorem next_extend (reg : Register n) (parent : Option Nat) :
    (reg.extend parent rows forest).next = reg.next + Tree.forestSize forest := by
  simp [extend, next, Tree.length_parentNumbers, h]

/-- A node, the forest below it and the forest beside it are noted one after the other. -/
theorem extend_cons (reg : Register n) (parent : Option Nat) (i : Fin n) (e : Entry Kind)
    (after : List Node) (rowsAfter : List (Fin n)) :
    ((reg.add i parent e forest.length).extend (some reg.next) rows forest).extend parent rowsAfter
      after = reg.extend parent (i :: rows ++ rowsAfter) (.node e forest :: after) := by
  have hnext : ((reg.add i parent e forest.length).extend (some reg.next) rows forest).next =
      reg.next + 1 + Tree.forestSize forest := by
    rw [next_extend h, next_add]
  have hzip : rows.length = (Tree.parentNumbers (some reg.next) (reg.next + 1) forest).length := by
    rw [Tree.length_parentNumbers, h]
  ext1
  · rw [extend, hnext, extend, extend, next_add, Tree.parentNumbers, List.cons_append,
      List.cons_append, List.zip_cons_cons, List.zip_append hzip]
    simp [add]
  · have hlength := Tree.length_subtreesAgenda forest
    rw [extend, hnext, extend, extend, next_add, Tree.subtreesAgenda_cons]
    simp [numberedSpans, add, List.zipIdx_append, hlength, Tree.span, Tree.value]
  · simp only [extend, Tree.subtreesAgenda_cons]
    simp [add, Tree.tally, Tree.value, Tree.children]

end

end Register

namespace NodeTable

variable {t : NodeTable} {file : String}

/-! ## Following the links -/

/-- Following links goes well: each link leads to a row that has not been met before and passes its
check, then come the rows below it, and then those of the next link. What comes out is a forest, and
the rows it was met in. -/
inductive Follows (t : NodeTable) (file : String) :
    (links met : List (Fin t.size)) → List Node → List (Fin t.size) → Prop
  | nil {met : List (Fin t.size)} : Follows t file [] met [] []
  | cons {i : Fin t.size} {rest met rowsBelow rowsAfter : List (Fin t.size)} {e : Entry Kind}
      {below after : List Node} (fresh : i ∉ met)
      (passes : (t.row i).entry.check file (t.headingsBelow i) = .ok e)
      (down : Follows t file (t.row i).children (met ++ [i]) below rowsBelow)
      (along : Follows t file rest (met ++ [i] ++ rowsBelow) after rowsAfter) :
      Follows t file (i :: rest) met (.node e below :: after) (i :: rowsBelow ++ rowsAfter)

namespace Follows

variable {links met rows : List (Fin t.size)} {forest : List Node}

theorem length_forest (h : Follows t file links met forest rows) :
    forest.length = links.length := by
  induction h with
  | nil => rfl
  | cons _ _ _ _ _ ihAlong => rw [List.length_cons, List.length_cons, ihAlong]

theorem length_rows (h : Follows t file links met forest rows) :
    rows.length = Tree.forestSize forest := by
  induction h with
  | nil => rfl
  | cons _ _ _ _ ihDown ihAlong =>
    rw [List.length_append, List.length_cons, ihDown, ihAlong, Tree.forestSize, Tree.size]

theorem split {links' : List (Fin t.size)} (h : Follows t file (links ++ links') met forest rows) :
    ∃ forest₁ forest₂ rows₁ rows₂, forest = forest₁ ++ forest₂ ∧
      Follows t file links met forest₁ rows₁ ∧
      Follows t file links' (met ++ rows₁) forest₂ rows₂ := by
  induction links generalizing met forest rows with
  | nil => exact ⟨[], forest, [], rows, rfl, .nil, by rwa [List.append_nil]⟩
  | cons i links ih =>
    cases h with
    | cons fresh passes down along =>
      obtain ⟨forest₁, forest₂, rows₁, rows₂, rfl, hlinks, hlinks'⟩ := ih along
      refine ⟨_, forest₂, _, rows₂, rfl, .cons fresh passes down hlinks, ?_⟩
      simpa using hlinks'

/-- An agenda that starts with links that go well comes to what follows them, once the forest has
been noted. -/
theorem checkAgenda_eq (h : Follows t file links met forest rows) {reg : Register t.size}
    (hmet : reg.rows = met) (parent : Option Nat) (rest : List (Fin t.size × Option Nat)) :
    t.checkAgenda file (t.agendaFor parent links ++ rest) reg =
      t.checkAgenda file rest (reg.extend parent rows forest) := by
  induction h generalizing reg parent rest with
  | nil => rw [agendaFor, List.map_nil, List.nil_append, Register.extend_nil]
  | @cons i links met rowsBelow rowsAfter e below after fresh passes down along ihDown ihAlong =>
    have hnew : ¬ reg.has i = true := by rwa [Register.has_eq_true_iff, hmet]
    have hbelow := down.length_rows
    rw [agendaFor, List.map_cons, List.cons_append, ← agendaFor, checkAgenda, dif_neg hnew, passes]
    dsimp only
    rw [ihDown (by rw [Register.rows_add, hmet]),
      ihAlong (by rw [Register.rows_extend hbelow, Register.rows_add, hmet]),
      ← down.length_forest, Register.extend_cons hbelow]

end Follows

theorem map_fst_agendaFor (parent : Option Nat) (rows : List (Fin t.size)) :
    (t.agendaFor parent rows).map Prod.fst = rows := by
  rw [agendaFor, List.map_map]
  exact List.map_id rows

theorem exists_follows_of_checkAgenda {agenda : List (Fin t.size × Option Nat)}
    {reg reg' : Register t.size} (h : t.checkAgenda file agenda reg = .ok reg') :
    ∃ forest rows, Follows t file (agenda.map Prod.fst) reg.rows forest rows := by
  fun_induction t.checkAgenda file agenda reg with
  | case1 reg => exact ⟨[], [], .nil⟩
  | case2 i parent rest reg hmet => cases h
  | case3 i parent rest reg hmet defect hcheck => cases h
  | case4 i parent rest reg hmet entry hcheck children ih =>
    obtain ⟨forest, rows, hfollows⟩ := ih h
    rw [List.map_append, map_fst_agendaFor, Register.rows_add] at hfollows
    obtain ⟨below, after, rowsBelow, rowsAfter, -, hdown, halong⟩ := hfollows.split
    exact ⟨_, _, .cons (mt Register.has_eq_true_iff.mpr hmet) hcheck hdown halong⟩

/-- The check goes well exactly when the roots stand apart and following them goes well, and it
notes the forest that comes out. -/
theorem check_eq_ok_iff {roots : List (Fin t.size)} {reg : Register t.size} :
    t.check file roots = .ok reg ↔
      ((roots.map t.heading).IsChain fun a b => Apart a.span b.span) ∧
      ∃ forest rows, Follows t file roots [] forest rows ∧
        reg = ({} : Register t.size).extend none rows forest := by
  have hloop : ∀ {forest rows}, Follows t file roots [] forest rows →
      t.checkAgenda file (t.agendaFor none roots) {} =
        .ok (({} : Register t.size).extend none rows forest) := by
    intro forest rows hfollows
    have hrows : ({} : Register t.size).rows = [] := rfl
    have h := hfollows.checkAgenda_eq hrows none []
    rwa [List.append_nil, checkAgenda] at h
  unfold check
  rw [bind_eq_ok_iff]
  constructor
  · rintro ⟨⟨⟩, hsiblings, hagenda⟩
    obtain ⟨forest, rows, hfollows⟩ := exists_follows_of_checkAgenda hagenda
    rw [map_fst_agendaFor] at hfollows
    rw [hloop hfollows] at hagenda
    exact ⟨(checkSiblings_eq_ok_iff _ _).mp hsiblings, forest, rows, hfollows,
      (Except.ok.inj hagenda).symm⟩
  · rintro ⟨hchain, forest, rows, hfollows, rfl⟩
    exact ⟨(), (checkSiblings_eq_ok_iff _ _).mpr hchain, hloop hfollows⟩

/-! ## Paths -/

/-- A path of places leads to a row: the place of a link in the given list, then the place of a
child among the children of the row reached so far, and so on. -/
inductive Leads (t : NodeTable) : (links : List (Fin t.size)) → List Nat → Fin t.size → Prop
  | link {links : List (Fin t.size)} {k : Nat} {i : Fin t.size} (at_place : links[k]? = some i) :
      Leads t links [k] i
  | child {links : List (Fin t.size)} {k : Nat} {j i : Fin t.size} {p : List Nat}
      (at_place : links[k]? = some j) (onward : Leads t (t.row j).children p i) :
      Leads t links (k :: p) i

/-- Some path leads to the row. -/
def Reachable (t : NodeTable) (links : List (Fin t.size)) (i : Fin t.size) : Prop :=
  ∃ p, t.Leads links p i

/-- No row is reached by two paths. -/
def OnePath (t : NodeTable) (links : List (Fin t.size)) : Prop :=
  ∀ p q i, t.Leads links p i → t.Leads links q i → p = q

theorem not_leads_nil {p : List Nat} {i : Fin t.size} : ¬ t.Leads [] p i := by
  intro h
  cases h with
  | link hk => simp at hk
  | child hk _ => simp at hk

theorem leads_cons_zero {i j : Fin t.size} {rest : List (Fin t.size)} {p : List Nat} :
    t.Leads (i :: rest) (0 :: p) j ↔ p = [] ∧ j = i ∨ t.Leads (t.row i).children p j := by
  constructor
  · intro h
    cases h with
    | link hk => simp at hk; exact Or.inl ⟨rfl, hk.symm⟩
    | child hk onward => simp at hk; subst hk; exact Or.inr onward
  · rintro (⟨rfl, rfl⟩ | h)
    · exact .link rfl
    · exact .child rfl h

theorem leads_cons_succ {i j : Fin t.size} {rest : List (Fin t.size)} {k : Nat} {p : List Nat} :
    t.Leads (i :: rest) ((k + 1) :: p) j ↔ t.Leads rest (k :: p) j := by
  constructor
  · intro h
    cases h with
    | link hk => exact .link (by simpa using hk)
    | child hk onward => exact .child (by simpa using hk) onward
  · intro h
    cases h with
    | link hk => exact .link (by simpa using hk)
    | child hk onward => exact .child (by simpa using hk) onward

theorem not_reachable_nil (i : Fin t.size) : ¬ t.Reachable [] i := by
  rintro ⟨p, h⟩
  exact not_leads_nil h

theorem reachable_cons_iff {i j : Fin t.size} {rest : List (Fin t.size)} :
    t.Reachable (i :: rest) j ↔ j = i ∨ t.Reachable (t.row i).children j ∨ t.Reachable rest j := by
  constructor
  · rintro ⟨p, h⟩
    rcases p with _ | ⟨_ | k, p⟩
    · cases h
    · rcases leads_cons_zero.mp h with ⟨-, rfl⟩ | h
      · exact Or.inl rfl
      · exact Or.inr (Or.inl ⟨p, h⟩)
    · exact Or.inr (Or.inr ⟨k :: p, leads_cons_succ.mp h⟩)
  · rintro (rfl | ⟨p, h⟩ | ⟨p, h⟩)
    · exact ⟨[0], .link rfl⟩
    · exact ⟨0 :: p, leads_cons_zero.mpr (Or.inr h)⟩
    · rcases p with _ | ⟨k, p⟩
      · cases h
      · exact ⟨(k + 1) :: p, leads_cons_succ.mpr h⟩

theorem reachable_of_mem {links : List (Fin t.size)} {i : Fin t.size} (h : i ∈ links) :
    t.Reachable links i := by
  obtain ⟨k, hk⟩ := List.mem_iff_getElem?.mp h
  exact ⟨[k], .link hk⟩

/-- The children of a reachable row are reachable. -/
theorem Reachable.child {links : List (Fin t.size)} {i c : Fin t.size} (h : t.Reachable links i)
    (hc : c ∈ (t.row i).children) : t.Reachable links c := by
  obtain ⟨p, hp⟩ := h
  induction hp with
  | @link links k i hk =>
    obtain ⟨n, hn⟩ := List.mem_iff_getElem?.mp hc
    exact ⟨[k, n], .child hk (.link hn)⟩
  | @child links k j i p hk _ ih =>
    obtain ⟨q, hq⟩ := ih hc
    exact ⟨k :: q, .child hk hq⟩

/-- Paths from a first link and the links after it stay apart: the first row is not met again, and
what lies below it is not reached from the others. -/
theorem onePath_cons_iff {i : Fin t.size} {rest : List (Fin t.size)} :
    t.OnePath (i :: rest) ↔ t.OnePath (t.row i).children ∧ t.OnePath rest ∧
      ¬ t.Reachable (t.row i).children i ∧ ¬ t.Reachable rest i ∧
      ∀ j, t.Reachable (t.row i).children j → ¬ t.Reachable rest j := by
  constructor
  · intro h
    have hself : t.Leads (i :: rest) [0] i := .link rfl
    have hdown {p j} (hp : t.Leads (t.row i).children p j) : t.Leads (i :: rest) (0 :: p) j :=
      leads_cons_zero.mpr (Or.inr hp)
    refine ⟨?_, ?_, ?_, ?_, ?_⟩
    · intro p q j hp hq
      simpa using h _ _ j (hdown hp) (hdown hq)
    · intro p q j hp hq
      rcases p with _ | ⟨k, p⟩
      · cases hp
      rcases q with _ | ⟨l, q⟩
      · cases hq
      simpa using h _ _ j (leads_cons_succ.mpr hp) (leads_cons_succ.mpr hq)
    · rintro ⟨p, hp⟩
      have := h _ _ i hself (hdown hp)
      simp only [List.cons.injEq, true_and] at this
      subst this
      cases hp
    · rintro ⟨_ | ⟨k, p⟩, hp⟩
      · cases hp
      · simpa using h _ _ i hself (leads_cons_succ.mpr hp)
    · rintro j ⟨p, hp⟩ ⟨_ | ⟨k, q⟩, hq⟩
      · cases hq
      · simpa using h _ _ j (hdown hp) (leads_cons_succ.mpr hq)
  · rintro ⟨hchildren, hrest, hself, hlater, hdisjoint⟩ p q j hp hq
    rcases p with _ | ⟨_ | k, p⟩
    · cases hp
    · rcases q with _ | ⟨_ | l, q⟩
      · cases hq
      · rcases leads_cons_zero.mp hp with ⟨rfl, rfl⟩ | hp
        · rcases leads_cons_zero.mp hq with ⟨rfl, -⟩ | hq
          · rfl
          · exact absurd ⟨q, hq⟩ hself
        · rcases leads_cons_zero.mp hq with ⟨rfl, rfl⟩ | hq
          · exact absurd ⟨p, hp⟩ hself
          · rw [hchildren p q j hp hq]
      · have hq' := leads_cons_succ.mp hq
        rcases leads_cons_zero.mp hp with ⟨rfl, rfl⟩ | hp
        · exact absurd ⟨_, hq'⟩ hlater
        · exact absurd ⟨_, hq'⟩ (hdisjoint j ⟨p, hp⟩)
    · have hp' := leads_cons_succ.mp hp
      rcases q with _ | ⟨_ | l, q⟩
      · cases hq
      · rcases leads_cons_zero.mp hq with ⟨rfl, rfl⟩ | hq
        · exact absurd ⟨_, hp'⟩ hlater
        · exact absurd ⟨_, hp'⟩ (hdisjoint j ⟨q, hq⟩)
      · simpa using hrest _ _ j hp' (leads_cons_succ.mp hq)

/-! ## What following the links finds out -/

/-- The span of the node in a row. -/
def span (t : NodeTable) (i : Fin t.size) : Span := (t.row i).entry.span

/-- The node in a row passes the checks. -/
def Passes (t : NodeTable) (file : String) (i : Fin t.size) : Prop :=
  ∃ e, (t.row i).entry.check file (t.headingsBelow i) = .ok e

theorem passes_iff {i : Fin t.size} :
    t.Passes file i ↔ (∃ k : Kind, k.name = (t.row i).entry.kind) ∧ (t.span i).file = file ∧
      (t.span i).start ≤ (t.span i).stop ∧
      (∀ c ∈ (t.row i).children, (t.span i).contains (t.span c) = true) ∧
      (t.headingsBelow i).IsChain fun a b => Apart a.span b.span := by
  have hcontained : (∀ c ∈ t.headingsBelow i, (t.span i).contains c.span = true) ↔
      ∀ c ∈ (t.row i).children, (t.span i).contains (t.span c) = true :=
    List.forall_mem_map
  unfold Passes
  simp only [Entry.check_eq_ok_iff]
  constructor
  · rintro ⟨e, k, hk, -, hfile, hupright, hinside, hchain⟩
    exact ⟨⟨k, hk⟩, hfile, hupright, hcontained.mp hinside, hchain⟩
  · rintro ⟨⟨k, hk⟩, hfile, hupright, hinside, hchain⟩
    exact ⟨_, k, hk, rfl, hfile, hupright, hcontained.mpr hinside, hchain⟩

/-- The rows are exactly those reachable from the links. None of them had been met, they pass the
checks, and each is reached by one path. -/
structure Explored (t : NodeTable) (file : String) (links met rows : List (Fin t.size)) :
    Prop where
  mem_rows : ∀ j, j ∈ rows ↔ t.Reachable links j
  fresh : ∀ j, t.Reachable links j → j ∉ met
  passes : ∀ j, t.Reachable links j → t.Passes file j
  one_path : t.OnePath links

theorem explored_of_follows {links met rows : List (Fin t.size)} {forest : List Node}
    (h : Follows t file links met forest rows) : t.Explored file links met rows := by
  induction h with
  | nil =>
    exact {
      mem_rows := fun j => by simp [not_reachable_nil]
      fresh := fun j hj => absurd hj (not_reachable_nil j)
      passes := fun j hj => absurd hj (not_reachable_nil j)
      one_path := fun p q j hp _ => absurd hp not_leads_nil }
  | @cons i rest met rowsBelow rowsAfter e below after fresh passes _ _ ihDown ihAlong =>
    obtain ⟨memD, freshD, passD, oneD⟩ := ihDown
    obtain ⟨memA, freshA, passA, oneA⟩ := ihAlong
    have hself : ¬ t.Reachable (t.row i).children i := fun hr => freshD i hr (by simp)
    -- What the siblings reach has been met neither at the row nor below it.
    have hlater : ∀ j, t.Reachable rest j →
        j ∉ met ∧ j ≠ i ∧ ¬ t.Reachable (t.row i).children j := by
      intro j hr
      have hnew := freshA j hr
      rw [List.mem_append, List.mem_append, List.mem_singleton, memD] at hnew
      push Not at hnew
      exact ⟨hnew.1.1, hnew.1.2, hnew.2⟩
    refine ⟨?_, ?_, ?_, ?_⟩
    · intro j
      rw [List.cons_append, List.mem_cons, List.mem_append, memD, memA, reachable_cons_iff]
    · intro j hj
      rcases reachable_cons_iff.mp hj with rfl | hj | hj
      · exact fresh
      · exact fun hmet => freshD j hj (List.mem_append_left _ hmet)
      · exact (hlater j hj).1
    · intro j hj
      rcases reachable_cons_iff.mp hj with rfl | hj | hj
      · exact ⟨e, passes⟩
      · exact passD j hj
      · exact passA j hj
    · exact onePath_cons_iff.mpr ⟨oneD, oneA, hself, fun hr => (hlater i hr).2.1 rfl,
        fun j hd hr => (hlater j hr).2.2 hd⟩

/-- How many rows are not in a list. -/
def missing (met : List (Fin t.size)) : Nat :=
  ((List.finRange t.size).filter fun i => decide (i ∉ met)).length

theorem missing_append_lt {met rows : List (Fin t.size)} {i : Fin t.size} (fresh : i ∉ met)
    (hi : i ∈ rows) : missing (met ++ rows) < missing met := by
  have hfewer : ((List.finRange t.size).filter fun j => decide (j ∉ met ++ rows)) =
      ((List.finRange t.size).filter fun j => decide (j ∉ met)).filter
        fun j => decide (j ∉ rows) := by
    rw [List.filter_filter]
    refine List.filter_congr fun j _ => ?_
    simp [Bool.and_comm]
  rw [missing, missing, hfewer, List.length_filter_lt_length_iff_exists]
  exact ⟨i, by simp [fresh, List.mem_finRange], by simpa using hi⟩

/-- When no reachable row has been met and all of them pass and are reached by one path, following
the links goes well. -/
theorem follows_of_passes {links met : List (Fin t.size)}
    (fresh : ∀ j, t.Reachable links j → j ∉ met)
    (passes : ∀ j, t.Reachable links j → t.Passes file j) (one : t.OnePath links) :
    ∃ forest rows, Follows t file links met forest rows := by
  -- Each row that is met leaves fewer that are not, both below it and beside it.
  induction hn : missing met using Nat.strongRecOn generalizing links met with
  | ind n ih =>
    rcases links with _ | ⟨i, rest⟩
    · exact ⟨[], [], .nil⟩
    obtain ⟨oneD, oneA, hself, hlater, hdisjoint⟩ := onePath_cons_iff.mp one
    have hdown {j} (hj : t.Reachable (t.row i).children j) : t.Reachable (i :: rest) j :=
      reachable_cons_iff.mpr (Or.inr (Or.inl hj))
    have halong {j} (hj : t.Reachable rest j) : t.Reachable (i :: rest) j :=
      reachable_cons_iff.mpr (Or.inr (Or.inr hj))
    have hi : t.Reachable (i :: rest) i := reachable_cons_iff.mpr (Or.inl rfl)
    have hfreshD : ∀ j, t.Reachable (t.row i).children j → j ∉ met ++ [i] := by
      intro j hj
      rw [List.mem_append, List.mem_singleton, not_or]
      refine ⟨fresh j (hdown hj), ?_⟩
      rintro rfl
      exact hself hj
    have hlessD : missing (met ++ [i]) < n :=
      hn ▸ missing_append_lt (fresh i hi) List.mem_cons_self
    obtain ⟨below, rowsBelow, down⟩ :=
      ih _ hlessD hfreshD (fun j hj => passes j (hdown hj)) oneD rfl
    have hfreshA : ∀ j, t.Reachable rest j → j ∉ met ++ [i] ++ rowsBelow := by
      intro j hj
      rw [List.mem_append, List.mem_append, List.mem_singleton, (explored_of_follows down).mem_rows]
      rintro ((hmet | rfl) | hd)
      · exact fresh j (halong hj) hmet
      · exact hlater hj
      · exact hdisjoint j hd hj
    have hlessA : missing (met ++ [i] ++ rowsBelow) < n := by
      rw [List.append_assoc]
      exact hn ▸ missing_append_lt (fresh i hi) List.mem_cons_self
    obtain ⟨after, rowsAfter, along⟩ :=
      ih _ hlessA hfreshA (fun j hj => passes j (halong hj)) oneA rfl
    obtain ⟨e, he⟩ := passes i hi
    exact ⟨_, _, .cons (fresh i hi) he down along⟩

/-! ## Well-formed tables -/

/-- The node in a row ends strictly before that in another row starts. -/
def EndsBefore (t : NodeTable) (i j : Fin t.size) : Prop := (t.span i).stop < (t.span j).start

/-- The rows reachable from the roots make a forest, and its nodes keep the rules of a unit. -/
structure WellFormed (t : NodeTable) (file : String) (roots : List (Fin t.size)) : Prop where
  one_path : ∀ i, t.Reachable roots i → ∃! p, t.Leads roots p i
  known_kind : ∀ i, t.Reachable roots i → ∃ k : Kind, k.name = (t.row i).entry.kind
  own_file : ∀ i, t.Reachable roots i → (t.span i).file = file
  upright : ∀ i, t.Reachable roots i → (t.span i).start ≤ (t.span i).stop
  contained : ∀ i, t.Reachable roots i →
    ∀ c ∈ (t.row i).children, (t.span i).contains (t.span c) = true
  roots_apart : roots.IsChain t.EndsBefore
  children_apart : ∀ i, t.Reachable roots i → (t.row i).children.IsChain t.EndsBefore

/-- Among rows with upright spans of one file, the siblings that the checks let stand are those that
end before the next one starts. -/
theorem isChain_apart_iff {links : List (Fin t.size)} (hf : ∀ i ∈ links, (t.span i).file = file)
    (hu : ∀ i ∈ links, (t.span i).start ≤ (t.span i).stop) :
    ((links.map t.heading).IsChain fun a b => Apart a.span b.span) ↔
      links.IsChain t.EndsBefore := by
  rw [List.isChain_map]
  apply List.IsChain.iff_of_mem_imp
  intro i j hi hj
  exact Span.apart_iff ((hf i hi).trans (hf j hj).symm) (hu i hi) (hu j hj)

theorem check_ok_iff_wellFormed {roots : List (Fin t.size)} :
    (∃ reg, t.check file roots = .ok reg) ↔ t.WellFormed file roots := by
  simp only [check_eq_ok_iff]
  constructor
  · rintro ⟨_, hroots, forest, rows, hfollows, -⟩
    have explored := explored_of_follows hfollows
    have hrules := fun i hi => passes_iff.mp (explored.passes i hi)
    have hfile : ∀ i, t.Reachable roots i → (t.span i).file = file := fun i hi => (hrules i hi).2.1
    have hupright : ∀ i, t.Reachable roots i → (t.span i).start ≤ (t.span i).stop :=
      fun i hi => (hrules i hi).2.2.1
    refine ⟨?_, fun i hi => (hrules i hi).1, hfile, hupright, fun i hi => (hrules i hi).2.2.2.1,
      ?_, ?_⟩
    · rintro i ⟨p, hp⟩
      exact ⟨p, hp, fun q hq => explored.one_path q p i hq hp⟩
    · exact (isChain_apart_iff (fun i hi => hfile i (reachable_of_mem hi))
        (fun i hi => hupright i (reachable_of_mem hi))).mp hroots
    · intro i hi
      exact (isChain_apart_iff (fun c hc => hfile c (hi.child hc))
        (fun c hc => hupright c (hi.child hc))).mp (hrules i hi).2.2.2.2
  · intro h
    have hpasses : ∀ i, t.Reachable roots i → t.Passes file i := by
      intro i hi
      have hchain := (isChain_apart_iff (fun c hc => h.own_file c (hi.child hc))
        (fun c hc => h.upright c (hi.child hc))).mpr (h.children_apart i hi)
      exact passes_iff.mpr
        ⟨h.known_kind i hi, h.own_file i hi, h.upright i hi, h.contained i hi, hchain⟩
    have hone : t.OnePath roots := by
      intro p q i hp hq
      exact (h.one_path i ⟨p, hp⟩).unique hp hq
    have hfresh : ∀ i, t.Reachable roots i → i ∉ [] := fun i _ => List.not_mem_nil
    obtain ⟨forest, rows, hfollows⟩ := follows_of_passes hfresh hpasses hone
    exact ⟨_, (isChain_apart_iff (fun i hi => h.own_file i (reachable_of_mem hi))
      (fun i hi => h.upright i (reachable_of_mem hi))).mpr h.roots_apart, forest, rows, hfollows,
      rfl⟩

/-! ## What a defect is about -/

theorem reachable_append_iff {links links' : List (Fin t.size)} {j : Fin t.size} :
    t.Reachable (links ++ links') j ↔ t.Reachable links j ∨ t.Reachable links' j := by
  induction links with
  | nil => simp [not_reachable_nil]
  | cons i links ih => rw [List.cons_append, reachable_cons_iff, reachable_cons_iff, ih]; tauto

/-- The node is that of a row reachable from the links. -/
def Names (t : NodeTable) (links : List (Fin t.size)) (n : Heading) : Prop :=
  ∃ i, t.Reachable links i ∧ n = t.heading i

theorem names_of_mem {links links' : List (Fin t.size)} {n : Heading}
    (hn : n ∈ links'.map t.heading) (h : ∀ i ∈ links', t.Reachable links i) : t.Names links n := by
  obtain ⟨i, hi, rfl⟩ := List.mem_map.mp hn
  exact ⟨i, h i hi, rfl⟩

theorem names_of_checkAgenda {agenda : List (Fin t.size × Option Nat)} {reg : Register t.size}
    {d : Defect} (h : t.checkAgenda file agenda reg = .error d) :
    ∀ n ∈ d.named, t.Names (agenda.map Prod.fst) n := by
  fun_induction t.checkAgenda file agenda reg with
  | case1 reg => cases h
  | case2 i parent rest reg hmet =>
    cases h
    intro n hn
    rw [Defect.named, List.mem_singleton] at hn
    exact ⟨i, reachable_of_mem (by simp), hn⟩
  | case3 i parent rest reg hmet defect hcheck =>
    cases h
    intro n hn
    have hself : t.Reachable (((i, parent) :: rest).map Prod.fst) i := reachable_of_mem (by simp)
    rcases Entry.named_of_check hcheck n hn with rfl | hchild
    · exact ⟨i, hself, rfl⟩
    · exact names_of_mem hchild fun c hc => hself.child hc
  | case4 i parent rest reg hmet entry hcheck children ih =>
    intro n hn
    obtain ⟨j, hj, rfl⟩ := ih h n hn
    refine ⟨j, ?_, rfl⟩
    rw [List.map_append, map_fst_agendaFor, reachable_append_iff] at hj
    exact reachable_cons_iff.mpr (Or.inr hj)

/-- What is wrong with a table is about rows that its roots lead to. -/
theorem names_of_check {roots : List (Fin t.size)} {d : Defect}
    (h : t.check file roots = .error d) : ∀ n ∈ d.named, t.Names roots n := by
  rcases bind_eq_error_iff.mp h with hsiblings | ⟨⟨⟩, -, hagenda⟩
  · intro n hn
    rcases named_of_checkSiblings hsiblings n hn with hroot | hparent
    · exact names_of_mem hroot fun i hi => reachable_of_mem hi
    · cases hparent
  · intro n hn
    have hnames := names_of_checkAgenda hagenda n hn
    rwa [map_fst_agendaFor] at hnames

end NodeTable

/-! ## Units from tables -/

namespace Model

/-- The unit of a forest: the parents and the spans of its nodes go by their places in the walk. -/
def ofForest (file : String) (roots : List Node) (lines : List String)
    (suppressions : List Suppression) : Model :=
  ⟨file, roots, lines, suppressions, Tree.parentNumbers none 0 roots,
    numberedSpans 0 (Tree.subtreesAgenda roots)⟩

theorem ofTable_eq_ok_iff {t : NodeTable} {file : String} {roots : List (Fin t.size)}
    {lines : List String} {suppressions : List Suppression} {m : Model} :
    ofTable t file roots lines suppressions = .ok m ↔
      ((roots.map t.heading).IsChain fun a b => Apart a.span b.span) ∧
      ∃ forest rows, t.Follows file roots [] forest rows ∧
        m = ofForest file forest lines suppressions := by
  have hmade : ∀ {forest rows}, t.Follows file roots [] forest rows →
      (⟨file, Tree.ofPreorder (({} : Register t.size).extend none rows forest).nodes, lines,
        suppressions, (({} : Register t.size).extend none rows forest).parents.map Prod.snd,
        (({} : Register t.size).extend none rows forest).bySpan⟩ : Model) =
      ofForest file forest lines suppressions := by
    intro forest rows hfollows
    have hlength : (Tree.parentNumbers none 0 forest).length ≤ rows.length := by
      rw [Tree.length_parentNumbers, hfollows.length_rows]
    rw [Model.mk.injEq]
    refine ⟨rfl, ?_, rfl, rfl, ?_, ?_⟩
    · exact Tree.ofPreorder_tally forest
    · exact List.map_snd_zip hlength
    · exact List.append_nil _
  unfold ofTable
  simp only [bind_eq_ok_iff, mapError_eq_ok_iff, NodeTable.check_eq_ok_iff]
  constructor
  · rintro ⟨_, ⟨hchain, forest, rows, hfollows, rfl⟩, hm⟩
    exact ⟨hchain, forest, rows, hfollows, by rw [← hmade hfollows]; exact (Except.ok.inj hm).symm⟩
  · rintro ⟨hchain, forest, rows, hfollows, rfl⟩
    exact ⟨_, ⟨hchain, forest, rows, hfollows, rfl⟩, by rw [← hmade hfollows]; rfl⟩

theorem exists_ofTable_iff {t : NodeTable} {file : String} {roots : List (Fin t.size)}
    {lines : List String} {suppressions : List Suppression} :
    (∃ m, ofTable t file roots lines suppressions = .ok m) ↔ t.WellFormed file roots := by
  rw [← NodeTable.check_ok_iff_wellFormed]
  unfold ofTable
  cases t.check file roots <;> simp [bind, Except.bind, pure, Except.pure]

/-- A table that is not taken ends in what its defect ends in, and the defect names rows that the
roots lead to. -/
theorem ofTable_eq_error_iff {t : NodeTable} {file : String} {roots : List (Fin t.size)}
    {lines : List String} {suppressions : List Suppression} {stop : Stop Malformed} :
    ofTable t file roots lines suppressions = .error stop ↔
      ∃ d, t.check file roots = .error d ∧ stop = d.raised := by
  unfold ofTable
  cases t.check file roots <;>
    simp [bind, Except.bind, pure, Except.pure, eq_comm]

end Model

/-- A table becomes a unit exactly when it is well-formed. Every other table is refused as malformed
with nodes that its roots lead to, unless there are no words for one of them: a start with an
integer that is too long to be written. -/
theorem ofTable_accepts_exactly_the_wellFormed_tables (t : NodeTable) (file : String)
    (roots : List (Fin t.size)) (lines : List String) (suppressions : List Suppression) :
    ((∃ m, Model.ofTable t file roots lines suppressions = .ok m) ↔ t.WellFormed file roots) ∧
      (¬ t.WellFormed file roots →
        (∃ refusal : Malformed,
          Model.ofTable t file roots lines suppressions = .error (.refused refusal) ∧
            ∀ n ∈ refusal.defect.named, t.Names roots n ∧ n.span.isShort = true) ∨
        Model.ofTable t file roots lines suppressions = .error .longInteger ∧
          ∃ i, t.Reachable roots i ∧ (t.span i).isShort = false) := by
  refine ⟨Model.exists_ofTable_iff, ?_⟩
  intro hnot
  cases hm : Model.ofTable t file roots lines suppressions with
  | ok m => exact absurd (Model.exists_ofTable_iff.mp ⟨m, hm⟩) hnot
  | error stop =>
    obtain ⟨d, hcheck, rfl⟩ := Model.ofTable_eq_error_iff.mp hm
    have hnames := NodeTable.names_of_check hcheck
    cases hraised : d.raised with
    | refused refusal =>
      refine Or.inl ⟨refusal, rfl, ?_⟩
      have hshort := d.exists_wording_iff.mp (Defect.exists_raised_iff.mp ⟨refusal, hraised⟩)
      rw [Defect.raised_eq_refused_iff.mp hraised]
      exact fun n hn => ⟨hnames n hn, hshort n hn⟩
    | longInteger =>
      refine Or.inr ⟨rfl, ?_⟩
      have hlong : ¬ ∀ n ∈ d.named, n.span.isShort = true := by
        rw [← d.exists_wording_iff, ← Defect.exists_raised_iff, hraised]
        simp
      push Not at hlong
      obtain ⟨n, hn, hn'⟩ := hlong
      obtain ⟨i, hi, rfl⟩ := hnames n hn
      exact ⟨i, hi, Bool.eq_false_of_not_eq_true hn'⟩

/-- One node that starts on a line with too many digits, and ends long before. -/
def farTable : NodeTable :=
  ⟨1, fun _ => ⟨⟨"component", none, ⟨"A", Number.longInteger, 1, 1, 1⟩, [], []⟩, []⟩⟩

/-- A table that is malformed and yet not refused as such. -/
theorem far_tables_are_not_refused :
    ¬ farTable.WellFormed "A" [⟨0, Nat.zero_lt_one⟩] ∧
      Model.ofTable farTable "A" [⟨0, Nat.zero_lt_one⟩] [] [] = .error .longInteger := by
  let root : Fin farTable.size := ⟨0, Nat.zero_lt_one⟩
  have hlong : (1 : Int) < Number.longInteger := Number.lt_longInteger (by decide)
  have hstop : (farTable.span root).stop < (farTable.span root).start := Or.inl hlong
  have hcheck : farTable.check "A" [root] = .error (.inverted (farTable.heading root)) := by
    have hinverted : (farTable.row root).entry.span.inverted = true := decide_eq_true hstop
    have hrow : (farTable.row root).entry.check "A" (farTable.headingsBelow root) =
        .error (.inverted (farTable.heading root)) := by
      have hkind : Kind.ofName? (farTable.row root).entry.kind = some .component := rfl
      rw [Entry.check, hkind]
      dsimp only
      rw [if_neg (by decide), if_pos hinverted]
      rfl
    have hfirst : ¬ ({} : Register farTable.size).has root = true := Bool.false_ne_true
    have hagenda : farTable.checkAgenda "A" [(root, none)] {} =
        .error (.inverted (farTable.heading root)) := by
      rw [NodeTable.checkAgenda, dif_neg hfirst, hrow]
    exact hagenda
  refine ⟨?_, ?_⟩
  · intro h
    exact absurd (h.upright root (NodeTable.reachable_of_mem List.mem_cons_self))
      (not_le.mpr hstop)
  · refine Model.ofTable_eq_error_iff.mpr ⟨_, hcheck, ?_⟩
    have hspan : (farTable.heading root).span.isShort = false := by
      rw [Span.isShort, Bool.and_eq_false_iff]
      exact Or.inl Number.isShort_longInteger
    have hwords : ¬ ∃ text, (Defect.inverted (farTable.heading root)).wording = .ok text := by
      rw [Defect.exists_wording_iff]
      simp [Defect.named, hspan]
    cases hraised : (Defect.inverted (farTable.heading root)).raised with
    | refused refusal => exact absurd (Defect.exists_raised_iff.mp ⟨refusal, hraised⟩) hwords
    | longInteger => rfl

end ComponentLint

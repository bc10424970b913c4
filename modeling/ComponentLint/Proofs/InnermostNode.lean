-- The nodes that a span or a position leads to. Nodes with one span, and nodes
-- that cover one position, are always around one another, so the last of them
-- on the walk is the innermost one; both questions end at that node, although
-- one keeps whatever was stored last and the other never goes back a step.
import ComponentLint.Proofs.Layout

namespace ComponentLint

/-! ## Innermost nodes -/

/-- A node of a unit that has a property, where every node that has it is that one or around it. -/
def Model.Innermost (m : Model) (p : Node → Prop) (n : Node) : Prop :=
  ∃ x ∈ m.walk, x.tree = n ∧ p n ∧ ∀ y ∈ m.walk, p y.tree → y = x ∨ y.tree ∈ x.ancestors

/-- Two nodes cannot be around each other, so at most one node is the innermost. -/
theorem Model.Innermost.unique {m : Model} {p : Node → Prop} {n n' : Node} (h : m.Innermost p n)
    (h' : m.Innermost p n') : n = n' := by
  have hwalk : m.walk = Tree.visitsAmong [] m.roots := Tree.walk_eq_visitsAmong m.roots
  obtain ⟨x, hx, rfl, hpx, hall⟩ := h
  obtain ⟨x', hx', rfl, hpx', hall'⟩ := h'
  rcases hall x' hx' hpx' with rfl | haround
  · rfl
  rcases hall' x hx hpx with rfl | haround'
  · rfl
  rw [hwalk] at hx hx'
  have hlt := Tree.size_lt_of_mem_ancestors (by simp) hx _ haround
  have hlt' := Tree.size_lt_of_mem_ancestors (by simp) hx' _ haround'
  omega

namespace Tree

variable {α : Type}

/-- The last node of a walk that has a property. -/
def lastVisit? (p : Tree α → Bool) (visits : List (Visit α)) : Option (Visit α) :=
  visits.reverse.find? fun v => p v.tree

/-- Visits of which each one with a property is around the later ones with it. -/
def Chained (p : Tree α → Bool) (visits : List (Visit α)) : Prop :=
  visits.Pairwise fun x y => p x.tree → p y.tree → x.tree ∈ y.ancestors

theorem lastVisit?_eq_none_iff {p : Tree α → Bool} {visits : List (Visit α)} :
    lastVisit? p visits = none ↔ ∀ v ∈ visits, ¬ p v.tree := by
  simp [lastVisit?]

theorem lastVisit?_cons (p : Tree α → Bool) (v : Visit α) (visits : List (Visit α)) :
    lastVisit? p (v :: visits) =
      (lastVisit? p visits).or (if p v.tree then some v else none) := by
  unfold lastVisit?
  rw [List.reverse_cons, List.find?_append, List.find?_singleton]

theorem lastVisit?_append (p : Tree α → Bool) (as bs : List (Visit α)) :
    lastVisit? p (as ++ bs) = (lastVisit? p bs).or (lastVisit? p as) := by
  unfold lastVisit?
  rw [List.reverse_append, List.find?_append]

/-- Where the nodes with a property are around one another, all of them are around the last one. -/
theorem Chained.around_last {p : Tree α → Bool} {visits : List (Visit α)} {x : Visit α}
    (h : Chained p visits) (hlast : lastVisit? p visits = some x) :
    ∀ y ∈ visits, p y.tree → y = x ∨ y.tree ∈ x.ancestors := by
  obtain ⟨hpx, after, before, hsplit, hafter⟩ := List.find?_eq_some_iff_append.mp hlast
  have hvisits : visits = before.reverse ++ x :: after.reverse := by
    rw [← List.reverse_reverse visits, hsplit]
    simp
  subst hvisits
  intro y hy hpy
  rcases List.mem_append.mp hy with hy | hy
  · exact Or.inr ((List.pairwise_append.mp h).2.2 y hy x List.mem_cons_self hpy hpx)
  · rcases List.mem_cons.mp hy with rfl | hy
    · exact Or.inl rfl
    · have hnot := hafter y (List.mem_reverse.mp hy)
      simp [hpy] at hnot

end Tree

/-- Where the nodes with a property are around one another, the last one on the walk is the
innermost. -/
theorem Model.lastVisit?_eq_some_iff {m : Model} {p : Node → Bool} (h : Tree.Chained p m.walk)
    (n : Node) :
    (Tree.lastVisit? p m.walk).map Tree.Visit.tree = some n ↔ m.Innermost (fun n => p n) n := by
  have hfound : ∀ x, Tree.lastVisit? p m.walk = some x → m.Innermost (fun n => p n) x.tree := by
    intro x hx
    have hmem := List.mem_reverse.mp (List.mem_of_find?_eq_some hx)
    have hp : p x.tree := by simpa using List.find?_some hx
    exact ⟨x, hmem, rfl, hp, h.around_last hx⟩
  constructor
  · intro hlast
    obtain ⟨x, hx, rfl⟩ := Option.map_eq_some_iff.mp hlast
    exact hfound x hx
  · intro hinner
    cases hlast : Tree.lastVisit? p m.walk with
    | none =>
      obtain ⟨x, hx, rfl, hp, -⟩ := hinner
      exact absurd hp (Tree.lastVisit?_eq_none_iff.mp hlast x hx)
    | some x => rw [Option.map_some, (hfound x hlast).unique hinner]

/-! ## Spans -/

/-- Nodes with one span are around one another. -/
theorem Model.Accepted.chained_span {m : Model} (hm : m.Accepted) (s : Span) :
    Tree.Chained (fun n : Node => decide (n.span = s)) m.walk := by
  unfold Model.walk
  rw [Tree.walk_eq_visitsAmong]
  refine (hm.laid.pairwise_visits []).imp_of_mem ?_
  intro x y _ hy hxy hxs hys
  have hupright := (hm.laid.of_mem_visits [] y hy).2.1
  refine hxy.resolve_right ?_
  rw [of_decide_eq_true hxs, ← of_decide_eq_true hys]
  exact not_lt.mpr hupright

/-- Nodes of an accepted unit with the same tree are the same node. -/
theorem Model.Accepted.nodup_trees {m : Model} (hm : m.Accepted) :
    (m.walk.map Tree.Visit.tree).Nodup := by
  have hlarger : ∀ v ∈ m.walk, ∀ c ∈ v.ancestors, v.tree.size < c.size := by
    unfold Model.walk
    rw [Tree.walk_eq_visitsAmong]
    exact fun v hv => Tree.size_lt_of_mem_ancestors (by simp) hv
  rw [List.Nodup, List.pairwise_map, List.pairwise_iff_getElem]
  intro i j hi hj hij heq
  have hchained := List.pairwise_iff_getElem.mp (hm.chained_span m.walk[j].tree.span)
  have haround := hchained i j hi hj hij (by simp [heq]) (by simp)
  have hsize := hlarger _ (List.getElem_mem hj) _ haround
  rw [heq] at hsize
  exact absurd hsize (Nat.lt_irrefl _)

/-- What is stored of some trees under a span leads to the last tree with the span, also when
others follow. -/
theorem lookup_numberedSpans (s : Span) (trees rest : List Node) :
    (((numberedSpans 0 trees).lookup s).bind fun i => (trees ++ rest)[i]?) =
      trees.reverse.find? fun n => decide (n.span = s) := by
  induction trees using List.reverseRecOn generalizing rest with
  | nil => rfl
  | append_singleton trees t ih =>
    have hstored : numberedSpans 0 (trees ++ [t]) =
        (t.span, trees.length) :: numberedSpans 0 trees := by
      simp [numberedSpans, List.zipIdx_append]
    rw [hstored, List.lookup_cons, List.reverse_append, List.reverse_singleton,
      List.singleton_append, List.find?_cons]
    by_cases hspan : t.span = s
    · simp [hspan]
    · have hother : (s == t.span) = false := by simpa using Ne.symm hspan
      rw [hother, decide_eq_false hspan, List.append_assoc]
      exact ih ([t] ++ rest)

/-- A span leads to the last node of the walk that has it. -/
theorem Model.Accepted.lookup_eq {m : Model} (hm : m.Accepted) (s : Span) :
    m.lookup s =
      (Tree.lastVisit? (fun n : Node => decide (n.span = s)) m.walk).map Tree.Visit.tree := by
  have htrees : Tree.subtreesAgenda m.roots = m.walk.map Tree.Visit.tree := by
    rw [Tree.subtreesAgenda_eq [], Model.walk, Tree.walk_eq_visitsAmong]
  have hstored : m.bySpan = numberedSpans 0 (m.walk.map Tree.Visit.tree) := by
    rw [← htrees]
    exact congrArg Model.bySpan hm.eq_ofForest.2
  have hlast := lookup_numberedSpans s (m.walk.map Tree.Visit.tree) []
  have hnode : ∀ i, m.node? i = (m.walk.map Tree.Visit.tree ++ [])[i]? := by
    intro i
    rw [List.append_nil, List.getElem?_map, Model.node?]
  rw [Model.lookup, hstored, funext hnode, hlast, Tree.lastVisit?, ← List.map_reverse,
    List.find?_map]
  rfl

/-! ## Positions -/

/-- Nodes that cover one position are around one another. -/
theorem Model.Accepted.chained_covers {m : Model} (hm : m.Accepted) (p : Position) :
    Tree.Chained (fun n : Node => n.span.covers p) m.walk := by
  unfold Model.walk
  rw [Tree.walk_eq_visitsAmong]
  refine (hm.laid.pairwise_visits []).imp ?_
  intro x y hxy hx hy
  exact hxy.resolve_right fun hbefore => Span.not_covers_of_stop_lt hbefore hx hy

/-- Going down at the first node that covers a position, level by level, ends at the last node of
the walk that covers it: siblings beside that node cover it no more, and what lies below a node that
does not cover it does not either. -/
theorem Laid.innermostAmong_eq {file : String} {ts : List Node} (h : Laid file ts)
    (chain : List Node) (p : Position) :
    Tree.innermostAmong (fun e => e.span.covers p) ts =
      (Tree.lastVisit? (fun n : Node => n.span.covers p)
        (Tree.visitsAmong chain ts)).map Tree.Visit.tree := by
  induction h generalizing chain with
  | nil => rfl
  | @cons e ts us own upright inside under apart beside ihUnder ihBeside =>
    have hlaid := Laid.cons own upright inside under apart beside
    have hroot : Tree.span (.node e ts) = e.span := rfl
    rw [Tree.innermostAmong, Tree.innermost, ihUnder (chain ++ [.node e ts]), ihBeside chain,
      Tree.visitsAmong_cons, Tree.lastVisit?_append, Tree.lastVisit?_cons]
    by_cases hcovers : e.span.covers p = true
    · have hbeside : Tree.lastVisit? (fun n : Node => n.span.covers p)
          (Tree.visitsAmong chain us) = none := by
        rw [Tree.lastVisit?_eq_none_iff]
        intro v hv hcovered
        obtain ⟨-, -, u, hu, hc⟩ := beside.of_mem_visits chain v hv
        have hu' := Span.covers_of_contains hc hcovered
        exact Span.not_covers_of_stop_lt (hlaid.stop_lt_start u hu) hcovers hu'
      simp only [hbeside, hroot, hcovers, if_true, Option.none_or, Option.map_or, Option.map_none,
        Option.or_none, Option.map_some]
    · have hunder : Tree.lastVisit? (fun n : Node => n.span.covers p)
          (Tree.visitsAmong (chain ++ [.node e ts]) ts) = none := by
        rw [Tree.lastVisit?_eq_none_iff]
        intro v hv hcovered
        obtain ⟨-, -, t, ht, hc⟩ := under.of_mem_visits _ v hv
        exact hcovers (Span.covers_of_contains (Span.contains_trans (inside t ht) hc) hcovered)
      simp only [hunder, hroot, hcovers, Bool.false_eq_true, if_false, Option.none_or,
        Option.or_none]

theorem Model.Accepted.nodeAt_eq {m : Model} (hm : m.Accepted) (p : Position) :
    m.nodeAt p =
      (Tree.lastVisit? (fun n : Node => n.span.covers p) m.walk).map Tree.Visit.tree := by
  unfold Model.nodeAt Model.walk
  rw [hm.laid.innermostAmong_eq [] p, Tree.walk_eq_visitsAmong]

/-! ## Both questions -/

/-- In an accepted unit, a span leads to no node exactly when no node has it, and else to the node
that has it and lies within all nodes that do. A position leads to no node exactly when no node
covers it, and else to the node that covers it and lies within all nodes that do. -/
theorem spans_and_positions_lead_to_the_innermost_node (m : Model) (hm : m.Accepted) :
    (∀ s : Span, (m.lookup s = none ↔ ∀ v ∈ m.walk, v.tree.span ≠ s) ∧
      ∀ n, m.lookup s = some n ↔ m.Innermost (fun n => n.span = s) n) ∧
    ∀ p : Position, (m.nodeAt p = none ↔ ∀ v ∈ m.walk, ¬ v.tree.span.covers p) ∧
      ∀ n, m.nodeAt p = some n ↔ m.Innermost (fun n => n.span.covers p) n := by
  refine ⟨fun s => ?_, fun p => ?_⟩
  · rw [hm.lookup_eq s]
    constructor
    · rw [Option.map_eq_none_iff, Tree.lastVisit?_eq_none_iff]
      simp
    · intro n
      rw [Model.lastVisit?_eq_some_iff (hm.chained_span s)]
      simp
  · rw [hm.nodeAt_eq p]
    constructor
    · rw [Option.map_eq_none_iff, Tree.lastVisit?_eq_none_iff]
    · intro n
      exact Model.lastVisit?_eq_some_iff (hm.chained_covers p) n

-- The property fills its component, so both have the span and both cover its end.
theorem filled_leads_to_the_innermost_node :
    ∃ m n, Model.ofDrafts "A" filledDrafts [] [] = .ok m ∧ n.name = some "p" ∧
      m.nodeAt ⟨4, 2⟩ = some n ∧ m.lookup ⟨"A", 1, 1, 4, 2⟩ = some n := by
  have hfilled : ∃ m n, Model.ofDrafts "A" filledDrafts [] [] = .ok m ∧
      m.nodeAt ⟨4, 2⟩ = some n ∧ n.name = some "p" ∧ n.span = ⟨"A", 1, 1, 4, 2⟩ :=
    ⟨_, _, Model.ofDrafts_eq_ok_iff.mpr ⟨_, rfl, rfl⟩, rfl, rfl, rfl⟩
  obtain ⟨m, n, made, hat, hname, hspan⟩ := hfilled
  obtain ⟨hspans, hpositions⟩ :=
    spans_and_positions_lead_to_the_innermost_node m (Model.accepted_of_ofDrafts made)
  obtain ⟨x, hx, rfl, -, hall⟩ := ((hpositions ⟨4, 2⟩).2 n).mp hat
  have hinner : m.Innermost (fun n => n.span = ⟨"A", 1, 1, 4, 2⟩) x.tree := by
    refine ⟨x, hx, rfl, hspan, fun y hy hsame => hall y hy ?_⟩
    have hsame : y.tree.span = ⟨"A", 1, 1, 4, 2⟩ := hsame
    dsimp only
    rw [hsame]
    decide
  exact ⟨m, x.tree, made, hname, hat, ((hspans _).2 _).mpr hinner⟩

end ComponentLint

-- The layout of accepted units. The checks compare a node with its children
-- and with its next sibling only; over a whole unit they make the spans a
-- laminar family, and the walk goes in source order.
import ComponentLint.Proofs.DraftTables

namespace ComponentLint

/-! ## Accepted units -/

/-- A unit that was made of a table of linked nodes. -/
def Model.Accepted (m : Model) : Prop :=
  ∃ (t : NodeTable) (file : String) (roots : List (Fin t.size)) (lines : List String)
    (suppressions : List Suppression), Model.ofTable t file roots lines suppressions = .ok m

theorem Model.accepted_of_ofTable {t : NodeTable} {file : String} {roots : List (Fin t.size)}
    {lines : List String} {suppressions : List Suppression} {m : Model}
    (made : Model.ofTable t file roots lines suppressions = .ok m) : m.Accepted :=
  ⟨t, file, roots, lines, suppressions, made⟩

/-- Units of submitted trees are made of the tables that the trees unfold to. -/
theorem Model.accepted_of_ofDrafts {file : String} {roots : List Draft} {lines : List String}
    {suppressions : List Suppression} {m : Model}
    (made : Model.ofDrafts file roots lines suppressions = .ok m) : m.Accepted :=
  accepted_of_ofTable made

/-- A forest laid out in a file: every node is of the file and not inverted, covers its children and
ends before its next sibling starts. -/
inductive Laid (file : String) : List Node → Prop
  | nil : Laid file []
  | cons {e : Entry Kind} {ts us : List Node} (own : e.span.file = file)
      (upright : e.span.start ≤ e.span.stop)
      (inside : ∀ t ∈ ts, e.span.contains t.span = true) (under : Laid file ts)
      (apart : ∀ u ∈ us.head?, e.span.stop < u.span.start) (beside : Laid file us) :
      Laid file (.node e ts :: us)

/-- A checked node with laid-out children, put before laid-out siblings. -/
theorem laid_cons_of_check {file : String} {e : Entry String} {e' : Entry Kind}
    {children siblings : List Heading} {below after : List Node}
    (passes : e.check file children = .ok e') (under : Laid file below)
    (hbelow : below.map Tree.span = children.map Heading.span)
    (chain : (e.heading :: siblings).IsChain fun a b => Apart a.span b.span)
    (beside : Laid file after) (hafter : after.map Tree.span = siblings.map Heading.span) :
    Laid file (.node e' below :: after) := by
  obtain ⟨k, -, rfl, own, upright, inside, -⟩ := Entry.check_eq_ok_iff.mp passes
  refine .cons own upright ?_ under ?_ beside
  · intro t ht
    have : t.span ∈ children.map Heading.span := by
      rw [← hbelow]
      exact List.mem_map_of_mem ht
    obtain ⟨c, hc, hspan⟩ := List.mem_map.mp this
    rw [← hspan]
    exact inside c hc
  · intro u hu
    rcases after with _ | ⟨a, after⟩
    · cases hu
    rcases siblings with _ | ⟨s, siblings⟩
    · cases hafter
    simp only [List.head?_cons, Option.mem_def, Option.some.injEq] at hu
    subst hu
    simp only [List.map_cons, List.cons.injEq] at hafter
    cases beside with
    | cons own' upright' =>
      rw [List.isChain_cons_cons, ← hafter.1] at chain
      exact (Span.apart_iff (own.trans own'.symm) upright upright').mp chain.1

theorem laid_of_follows {t : NodeTable} {file : String} {links met rows : List (Fin t.size)}
    {forest : List Node} (h : t.Follows file links met forest rows)
    (chain : (links.map t.heading).IsChain fun a b => Apart a.span b.span) :
    Laid file forest ∧ forest.map Tree.span = (links.map t.heading).map Heading.span := by
  induction h with
  | nil => exact ⟨.nil, rfl⟩
  | @cons i rest met rowsBelow rowsAfter e below after fresh passes _ _ ihDown ihAlong =>
    obtain ⟨k, -, hentry, -, -, -, hchildren⟩ := Entry.check_eq_ok_iff.mp passes
    obtain ⟨under, hbelow⟩ := ihDown hchildren
    obtain ⟨beside, hafter⟩ := ihAlong chain.of_cons
    refine ⟨laid_cons_of_check passes under hbelow chain beside hafter, ?_⟩
    simp only [List.map_cons, hafter, hentry]
    rfl

/-- Every accepted unit is that of a forest laid out in its file. -/
theorem Model.Accepted.eq_ofForest {m : Model} (h : m.Accepted) :
    Laid m.file m.roots ∧ m = Model.ofForest m.file m.roots m.lines m.suppressions := by
  obtain ⟨t, file, roots, lines, suppressions, made⟩ := h
  obtain ⟨hchain, forest, rows, hfollows, rfl⟩ := Model.ofTable_eq_ok_iff.mp made
  exact ⟨(laid_of_follows hfollows hchain).1, rfl⟩

theorem Model.Accepted.laid {m : Model} (h : m.Accepted) : Laid m.file m.roots := h.eq_ofForest.1

/-- The nodes that the check has noted are those of the walk. -/
theorem Model.Accepted.size_eq {m : Model} (h : m.Accepted) : m.size = m.walk.length := by
  have hnoted : m.parents = Tree.parentNumbers none 0 m.roots :=
    congrArg Model.parents h.eq_ofForest.2
  rw [Model.size, hnoted, Tree.length_parentNumbers, Model.walk, Tree.walk_eq_visitsAmong,
    Tree.length_visitsAmong]

/-! ## Spans along the walk -/

namespace Laid

variable {file : String}

/-- A node ends before every later sibling starts, not only before the next one. -/
theorem stop_lt_start {e : Entry Kind} {ts us : List Node} (h : Laid file (.node e ts :: us)) :
    ∀ u ∈ us, e.span.stop < u.span.start := by
  induction us generalizing e ts with
  | nil => simp
  | cons u us ih =>
    obtain ⟨e', ts'⟩ := u
    cases h with
    | cons own upright inside under apart beside =>
      have hnext : e.span.stop < e'.span.start := apart _ rfl
      intro u hu
      rcases List.mem_cons.mp hu with rfl | hu
      · exact hnext
      · have hlater := ih beside u hu
        cases beside with
        | cons own' upright' => exact hnext.trans (upright'.trans_lt hlater)

/-- Every node of the walk is of the file and not inverted, and lies within one of the roots. -/
theorem of_mem_visits {ts : List Node} (h : Laid file ts) (chain : List Node) :
    ∀ v ∈ Tree.visitsAmong chain ts, v.tree.span.file = file ∧
      v.tree.span.start ≤ v.tree.span.stop ∧ ∃ t ∈ ts, t.span.contains v.tree.span = true := by
  induction h generalizing chain with
  | nil => simp [Tree.visitsAmong]
  | @cons e ts us own upright inside under apart beside ihUnder ihBeside =>
    intro v hv
    rw [Tree.mem_visitsAmong_cons] at hv
    rcases hv with rfl | hv | hv
    · exact ⟨own, upright, _, List.mem_cons_self, Span.contains_self _⟩
    · obtain ⟨hf, hu, t, ht, hc⟩ := ihUnder _ v hv
      exact ⟨hf, hu, _, List.mem_cons_self, Span.contains_trans (inside t ht) hc⟩
    · obtain ⟨hf, hu, t, ht, hc⟩ := ihBeside _ v hv
      exact ⟨hf, hu, t, List.mem_cons_of_mem _ ht, hc⟩

/-- Each node of the walk lies within all nodes of its chain, which it starts with if the chain of
the roots does. -/
theorem ancestors_contain {ts : List Node} (h : Laid file ts) (chain : List Node)
    (hchain : ∀ c ∈ chain, ∀ t ∈ ts, c.span.contains t.span = true) :
    ∀ v ∈ Tree.visitsAmong chain ts, ∀ c ∈ v.ancestors, c.span.contains v.tree.span = true := by
  induction h generalizing chain with
  | nil => simp [Tree.visitsAmong]
  | @cons e ts us own upright inside under apart beside ihUnder ihBeside =>
    intro v hv
    rw [Tree.mem_visitsAmong_cons] at hv
    rcases hv with rfl | hv | hv
    · intro c hc
      exact hchain c hc _ List.mem_cons_self
    · refine ihUnder _ ?_ v hv
      intro c hc t ht
      rcases List.mem_append.mp hc with hc | hc
      · exact Span.contains_trans (hchain c hc _ List.mem_cons_self) (inside t ht)
      · rw [List.mem_singleton.mp hc]
        exact inside t ht
    · exact ihBeside _ (fun c hc t ht => hchain c hc t (List.mem_cons_of_mem _ ht)) v hv

/-- Of two nodes of the walk, the first is in the chain of the second or ends before it starts. -/
theorem pairwise_visits {ts : List Node} (h : Laid file ts) (chain : List Node) :
    (Tree.visitsAmong chain ts).Pairwise fun x y =>
      x.tree ∈ y.ancestors ∨ x.tree.span.stop < y.tree.span.start := by
  induction h generalizing chain with
  | nil => simp [Tree.visitsAmong]
  | @cons e ts us own upright inside under apart beside ihUnder ihBeside =>
    have hlater : ∀ y ∈ Tree.visitsAmong chain us, e.span.stop < y.tree.span.start := by
      intro y hy
      obtain ⟨-, -, u, hu, hc⟩ := beside.of_mem_visits chain y hy
      have hstop := (Laid.cons own upright inside under apart beside).stop_lt_start u hu
      exact hstop.trans_le ((Span.contains_iff _ _).mp hc).2.1
    rw [Tree.visitsAmong_cons, List.cons_append, List.pairwise_cons, List.pairwise_append]
    refine ⟨?_, ihUnder _, ihBeside _, ?_⟩
    · intro y hy
      rcases List.mem_append.mp hy with hy | hy
      · exact Or.inl ((Tree.chain_prefix_of_mem_visits hy).subset (by simp))
      · exact Or.inr (hlater y hy)
    · -- a node below the first root ends within it, and so before what stands beside it
      intro x hx y hy
      obtain ⟨-, -, t, ht, hc⟩ := under.of_mem_visits _ x hx
      have hin := (Span.contains_iff _ _).mp (Span.contains_trans (inside t ht) hc)
      exact Or.inr (hin.2.2.trans_lt (hlater y hy))

end Laid

/-- The spans of a unit are a laminar family that the walk goes through in source order. -/
structure Model.Laminar (m : Model) : Prop where
  /-- No tree is met twice, so a node of the walk is known by its tree. -/
  distinct : (m.walk.map Tree.Visit.tree).Nodup
  /-- A node is around a later one and covers it, or is not around it and ends strictly before it
  starts. -/
  around_or_before : m.walk.Pairwise fun x y =>
    x.tree ∈ y.ancestors ∧ x.tree.span.contains y.tree.span = true ∨
      x.tree ∉ y.ancestors ∧ x.tree.span.stop < y.tree.span.start
  /-- Of two nodes with one span, the first is around the second. -/
  same_span : m.walk.Pairwise fun x y => x.tree.span = y.tree.span → x.tree ∈ y.ancestors

/-- Every accepted unit is laminar, although only neighbours are ever compared. -/
theorem accepted_units_are_laminar (m : Model) (h : m.Accepted) : m.Laminar := by
  have hwalk : m.walk = Tree.visitsAmong [] m.roots := Tree.walk_eq_visitsAmong m.roots
  have hlies := h.laid.pairwise_visits []
  have hupright := fun y hy => (h.laid.of_mem_visits [] y hy).2.1
  have hchain := h.laid.ancestors_contain [] (by simp)
  rw [← hwalk] at hlies hupright hchain
  refine ⟨?_, ?_, ?_⟩
  · rw [List.Nodup, List.pairwise_map]
    refine hlies.imp_of_mem ?_
    intro x y _ hy hxy heq
    rcases hxy with hin | hbefore
    · rw [hwalk] at hy
      have := Tree.size_lt_of_mem_ancestors (by simp) hy _ hin
      rw [heq] at this
      exact absurd this (Nat.lt_irrefl _)
    · rw [heq] at hbefore
      exact absurd hbefore (not_lt.mpr (hupright y hy))
  · refine hlies.imp_of_mem ?_
    intro x y _ hy hxy
    by_cases hin : x.tree ∈ y.ancestors
    · exact Or.inl ⟨hin, hchain y hy _ hin⟩
    · exact Or.inr ⟨hin, hxy.resolve_left hin⟩
  · refine hlies.imp_of_mem ?_
    intro x y _ hy hxy heq
    refine hxy.resolve_right ?_
    rw [heq]
    exact not_lt.mpr (hupright y hy)

/-- A component that a property fills, with a function right behind it. -/
def filledDrafts : List Draft :=
  [.node ⟨"component", some "A", ⟨"A", 1, 1, 4, 2⟩, [], []⟩
    [.node ⟨"property", some "p", ⟨"A", 1, 1, 4, 2⟩, [], []⟩ []],
   .node ⟨"function", some "f", ⟨"A", 4, 3, 9, 1⟩, [], []⟩ []]

theorem accepted_units_are_laminar_filled :
    ∃ m, Model.ofDrafts "A" filledDrafts [] [] = .ok m ∧ m.Laminar := by
  have made : ∃ m, Model.ofDrafts "A" filledDrafts [] [] = .ok m :=
    ⟨_, Model.ofDrafts_eq_ok_iff.mpr ⟨_, rfl, rfl⟩⟩
  obtain ⟨m, made⟩ := made
  exact ⟨m, made, accepted_units_are_laminar m (Model.accepted_of_ofDrafts made)⟩

end ComponentLint

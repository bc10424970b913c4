-- What the nodes of a unit measure. The numbers of a span that is read from a
-- document start at one, so all laws of line counts hold of the nodes: a node
-- lies on lines of its parent and measures no more than the parent does.
import ComponentLint.Proofs.LineCounts
import ComponentLint.Proofs.NodeDocuments
import ComponentLint.Proofs.Traversals

namespace ComponentLint

/-- A span within another one lies on lines of it. -/
theorem Span.lines_of_contains {outer inner : Span} (h : outer.contains inner = true) :
    outer.startLine ≤ inner.startLine ∧ inner.endLine ≤ outer.endLine := by
  obtain ⟨-, hstart, hstop⟩ := (Span.contains_iff _ _).mp h
  rw [Position.le_def] at hstart hstop
  simp only [Span.start, Span.stop] at hstart hstop
  omega

theorem Model.Accepted.startLine_le_endLine {m : Model} (h : m.Accepted)
    {v : Tree.Visit (Entry Kind)} (hv : v ∈ m.walk) :
    v.tree.span.startLine ≤ v.tree.span.endLine := by
  unfold Model.walk at hv
  rw [Tree.walk_eq_visitsAmong] at hv
  have hupright := (h.laid.of_mem_visits [] v hv).2.1
  rw [Position.le_def] at hupright
  simp only [Span.start, Span.stop] at hupright
  omega

/-! ## Spans that are read -/

namespace Document

theorem one_le_startLine_of_readNode_map {file : String} {turns : Nat} {path : NodePath}
    {entries : List (Value × Value)} {t : Draft}
    (h : readNode file turns path (.map entries) = .ok t) : 1 ≤ t.value.span.startLine := by
  rw [readNode] at h
  split at h
  · rename_i kind hkind
    obtain ⟨span, hspan, h⟩ := bind_eq_ok_iff.mp h
    obtain ⟨name, -, h⟩ := bind_eq_ok_iff.mp h
    obtain ⟨annotations, -, h⟩ := bind_eq_ok_iff.mp h
    obtain ⟨attributes, -, h⟩ := bind_eq_ok_iff.mp h
    have hpositive := (readSpan_eq_ok_iff.mp (mapError_eq_ok_iff.mp hspan)).2.1.startLine
    -- The children decide whether there is a node at all, and not where it stands.
    have hplaced : ∀ children : Except LoadFault (List Draft),
        (children >>= fun ts => readAttributes attributes >>= fun facts =>
          pure (.node ⟨kind, name, span, annotations, facts⟩ ts)) = .ok t →
        1 ≤ t.value.span.startLine := by
      intro children h
      obtain ⟨ts, -, h⟩ := bind_eq_ok_iff.mp h
      obtain ⟨facts, -, h⟩ := bind_eq_ok_iff.mp h
      cases h
      exact hpositive
    split at h
    · exact hplaced _ h
    · exact hplaced _ h
    · split at h <;> exact hplaced _ h
    · split at h <;> exact hplaced _ h
  · cases h

theorem one_le_startLine_of_readNode {file : String} {turns : Nat} {path : NodePath} {v : Value}
    {t : Draft} (h : readNode file turns path v = .ok t) : 1 ≤ t.value.span.startLine := by
  -- A document that holds itself is opened first, which takes a turn each time.
  induction turns generalizing v with
  | zero =>
    cases v with
    | map entries => exact one_le_startLine_of_readNode_map h
    | _ =>
      simp only [readNode] at h
      cases h
  | succ turns ih =>
    cases v with
    | map entries => exact one_le_startLine_of_readNode_map h
    | knot label body =>
      rw [readNode] at h
      exact ih h
    | _ =>
      simp only [readNode] at h
      cases h

theorem one_le_startLine_of_readRoots {file origin : String} {first : Nat} {documents : List Value}
    {drafts : List Draft} (h : readRoots file origin first documents = .ok drafts) :
    ∀ t ∈ drafts, 1 ≤ t.value.span.startLine := by
  rw [readRoots_eq] at h
  intro t ht
  obtain ⟨e, -, hread⟩ := (mem_mapM_iff h).mp ht
  exact one_le_startLine_of_readNode hread

end Document

/-- Checked trees stand where the submitted ones do. -/
theorem Draft.spans_of_checkRoots {file : String} {drafts : List Draft} {forest : List Node}
    (h : Draft.checkRoots file drafts = .ok forest) :
    forest.map Tree.span = (drafts.map fun t => t.value.heading).map Heading.span := by
  obtain ⟨hchain, rows, hfollows⟩ := NodeTable.follows_of_checkRoots h
  rw [← NodeTable.headings_rootsOf]
  exact (laid_of_follows hfollows hchain).2

/-- Every node of a unit that is read from a document starts on the first line or further down. -/
theorem Model.one_le_startLine_of_ofDocument {origin : String} {v : Value} {m : Model}
    (h : Model.ofDocument origin v = .ok m) : ∀ w ∈ m.walk, 1 ≤ w.tree.span.startLine := by
  have hlaid := (Model.accepted_of_ofDocument h).laid
  obtain ⟨file, lines, drafts, declared, forest, hreads, hcheck, rfl⟩ :=
    Model.ofDocument_eq_ok_iff.mp h
  obtain ⟨documents, -, hdrafts⟩ := hreads.drafts_eq
  intro w hw
  unfold Model.walk at hw
  rw [Tree.walk_eq_visitsAmong] at hw
  obtain ⟨-, -, root, hroot, hcontains⟩ := hlaid.of_mem_visits [] w hw
  -- The root that the node lies within has the span of a submitted tree.
  have hread : 1 ≤ root.span.startLine := by
    have hmem : root.span ∈ (drafts.map fun t => t.value.heading).map Heading.span := by
      rw [← Draft.spans_of_checkRoots hcheck]
      exact List.mem_map_of_mem hroot
    simp only [List.map_map, List.mem_map] at hmem
    obtain ⟨t, ht, hspan⟩ := hmem
    rw [← hspan]
    exact Document.one_le_startLine_of_readRoots hdrafts t ht
  have hlines := (Span.lines_of_contains hcontains).1
  omega

/-! ## Nodes and their parents -/

/-- The parent of a node of a unit stands in the walk as well, and contains the node. -/
theorem Model.Accepted.parent_contains {m : Model} (h : m.Accepted) {v : Tree.Visit (Entry Kind)}
    (hv : v ∈ m.walk) {parent : Node} (hparent : v.ancestors.getLast? = some parent) :
    parent.span.contains v.tree.span = true ∧ ∃ w ∈ m.walk, w.tree = parent := by
  unfold Model.walk at hv ⊢
  rw [Tree.walk_eq_visitsAmong] at hv ⊢
  have hmem : parent ∈ v.ancestors := List.mem_of_getLast? hparent
  obtain ⟨w, hw, htree, -⟩ := Tree.exists_below_of_mem_ancestors hv hmem List.not_mem_nil
  exact ⟨h.laid.ancestors_contain [] (by simp) v hv parent hmem, w, hw, htree⟩

/-- The lines of a text that hold code add up: what the lines of a span measure is the sum of what
its parts measure, wherever it is cut. So it is never more than the number of lines, it is less for
fewer lines, and no node of a unit that is read from a document measures more than its parent. -/
theorem measured_lines_add_up (m : Model) :
    (∀ (a b c : Int) (whole upper lower : Span), 1 ≤ a → a ≤ b + 1 → b ≤ c →
      whole.OnLines a c → upper.OnLines a b → lower.OnLines (b + 1) c →
      m.measured whole = m.measured upper + m.measured lower) ∧
    (∀ s : Span, 1 ≤ s.startLine → s.startLine ≤ s.endLine →
      0 ≤ m.measured s ∧ m.measured s ≤ s.lineCount) ∧
    (∀ inner outer : Span, 1 ≤ outer.startLine → outer.startLine ≤ inner.startLine →
      inner.startLine ≤ inner.endLine → inner.endLine ≤ outer.endLine →
      m.measured inner ≤ m.measured outer) ∧
    ∀ origin v, Model.ofDocument origin v = .ok m →
      ∀ (h : Model.Handle) (i : Nat) (visit : Tree.Visit (Entry Kind)) (parent : Node),
        h.place = some i → m.walk[i]? = some visit → m.parentOf h = .ok (some parent) →
        m.measured visit.tree.span ≤ m.measured parent.span := by
  have hmonotone : ∀ inner outer : Span, 1 ≤ outer.startLine →
      outer.startLine ≤ inner.startLine → inner.startLine ≤ inner.endLine →
      inner.endLine ≤ outer.endLine → m.measured inner ≤ m.measured outer :=
    fun inner outer houter hstart hinner hend =>
      Source.measure_le_of_within m.lines houter hstart hinner hend
  refine ⟨fun a b c whole upper lower ha hab hbc hwhole hupper hlower =>
      Source.measure_add m.lines ha hab hbc hwhole hupper hlower,
    fun s hstart hend => Source.measure_bounds m.lines hstart (by omega), hmonotone, ?_⟩
  intro origin v hm h i visit parent hplace hvisit hparent
  have haccepted := Model.accepted_of_ofDocument hm
  have hmem : visit ∈ m.walk := List.mem_of_getElem? hvisit
  rw [haccepted.parentOf_eq, hplace, Option.bind_some, hvisit] at hparent
  obtain ⟨hcontains, w, hw, rfl⟩ :=
    haccepted.parent_contains hmem (Except.ok.inj hparent)
  have hfirst := Model.one_le_startLine_of_ofDocument hm w hw
  have hlines := Span.lines_of_contains hcontains
  exact hmonotone _ _ hfirst hlines.1 (haccepted.startLine_le_endLine hmem) hlines.2

/-- A body that ends below the last line of the text. -/
def bodyDocument : Value :=
  .map [(.str "kind", .str "function"), (.str "name", .str "body"),
    (.str "span", .list [.int 2, .int 3, .int 5, .int 4])]

/-- A component with the body, whose second line is within a block comment. -/
def commentedBody : Value :=
  .map [(.str "file", .str "Card"),
    (.str "source", .str "view Card\n  body /* the\n  layout */\n    Text()"),
    (.str "nodes", .list [.map [(.str "kind", .str "component"), (.str "name", .str "Card"),
      (.str "span", .list [.int 1, .int 1, .int 6, .int 2]),
      (.str "children", .list [bodyDocument])]])]

theorem commentedBody_adds_up :
    ∃ m, Model.ofDocument "card" commentedBody = .ok m ∧
      m.measured ⟨"Card", 2, 3, 5, 4⟩ =
        m.measured ⟨"Card", 2, 3, 2, 20⟩ + m.measured ⟨"Card", 3, 1, 5, 4⟩ ∧
      (0 ≤ m.measured ⟨"Card", 2, 3, 5, 4⟩ ∧ m.measured ⟨"Card", 2, 3, 5, 4⟩ ≤ 4) ∧
      m.measured ⟨"Card", 3, 1, 5, 4⟩ ≤ m.measured ⟨"Card", 2, 3, 5, 4⟩ ∧
      (∃ parent,
        m.parentOf ⟨some 1, ⟨"function", some "body", ⟨"Card", 2, 3, 5, 4⟩⟩⟩ = .ok (some parent) ∧
        m.measured ⟨"Card", 2, 3, 5, 4⟩ ≤ m.measured parent.span) ∧
      m.measured ⟨"Card", 2, 3, 5, 4⟩ = 2 := by
  let body : Entry Kind := ⟨.function, some "body", ⟨"Card", 2, 3, 5, 4⟩, [], []⟩
  let card : Entry Kind := ⟨.component, some "Card", ⟨"Card", 1, 1, 6, 2⟩, [], []⟩
  let m : Model := .ofForest "Card" [.node card [.node body []]]
    ["view Card", "  body /* the", "  layout */", "    Text()"] []
  let draft : Draft :=
    .node { card with kind := "component" } [.node { body with kind := "function" } []]
  have hm : Model.ofDocument "card" commentedBody = .ok m := by
    refine Model.ofDocument_eq_ok_iff.mpr
      ⟨_, _, [draft], [], _, ⟨⟨_, rfl⟩, rfl, rfl, ⟨_, rfl, ?_⟩, rfl⟩, rfl, rfl⟩
    have hbody : ∀ path, Document.readNode "Card" Document.maxTurns path bodyDocument =
        .ok (.node { body with kind := "function" } []) := by
      intro path
      unfold bodyDocument
      rw [Document.readNode]
      rfl
    have hchildren : ∀ path, Document.readChildren "Card" Document.maxTurns path 0 [bodyDocument] =
        .ok [.node { body with kind := "function" } []] := by
      intro path
      rw [Document.readChildren, hbody, Document.readChildren]
      rfl
    rw [Document.readRoots, Document.readNode]
    refine bind_eq_ok_iff.mpr ⟨draft, ?_, rfl⟩
    -- The span, the name, the annotations and the attributes are read, then the children.
    refine bind_eq_ok_iff.mpr ⟨_, rfl, bind_eq_ok_iff.mpr ⟨_, rfl, ?_⟩⟩
    refine bind_eq_ok_iff.mpr ⟨_, rfl, bind_eq_ok_iff.mpr ⟨_, rfl, ?_⟩⟩
    exact bind_eq_ok_iff.mpr ⟨_, hchildren _, rfl⟩
  obtain ⟨hadd, hbounds, hmonotone, hparent⟩ := measured_lines_add_up m
  have hparentOf : m.parentOf ⟨some 1, ⟨"function", some "body", ⟨"Card", 2, 3, 5, 4⟩⟩⟩ =
      .ok (some (.node card [.node body []])) := by
    rw [(Model.accepted_of_ofDocument hm).parentOf_eq, Model.walk, Tree.walk_eq_visitsAmong]
    rfl
  refine ⟨m, hm, ?_, ?_, ?_, ⟨_, hparentOf, ?_⟩, by decide⟩
  · exact hadd 2 2 5 _ _ _ (by decide) (by decide) (by decide) ⟨rfl, rfl⟩ ⟨rfl, rfl⟩ ⟨rfl, rfl⟩
  · exact hbounds _ (by decide) (by decide)
  · exact hmonotone _ _ (by decide) (by decide) (by decide) (by decide)
  · exact hparent "card" commentedBody hm _ 1 ⟨.node body [], [.node card [.node body []]]⟩ _ rfl
      (by rw [Model.walk, Tree.walk_eq_visitsAmong]; rfl) hparentOf

end ComponentLint

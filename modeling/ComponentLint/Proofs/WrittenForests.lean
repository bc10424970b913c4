-- Forests that are written down as documents and read back. A document may
-- leave out what is empty, bare annotations may be a list of names, and each
-- span has two forms; a forest that is laid out in its file comes back with
-- the same nodes, the lists among its attributes read as tuples.
import ComponentLint.Proofs.NodeDocuments
import ComponentLint.Proofs.Traversals

namespace ComponentLint

/-! ## Values with texts as keys -/

namespace Value

/-- The entries of a mapping with texts as keys. -/
def ofEntries (entries : Entries Value) : List (Value × Value) :=
  entries.map fun e => (.str e.1, e.2)

mutual

/-- A value with its lists as tuples, those within lists and mappings too. -/
def tupled : Value → Value
  | list items => tuple (tupledAll items)
  | map entries => map (tupledEntries entries)
  | v => v

/-- Several values with their lists as tuples. -/
def tupledAll : List Value → List Value
  | [] => []
  | v :: rest => tupled v :: tupledAll rest

/-- Entries with the lists of their values as tuples. -/
def tupledEntries : List (Value × Value) → List (Value × Value)
  | [] => []
  | (k, v) :: rest => (k, tupled v) :: tupledEntries rest

end

/-- A value that does not hold itself and whose mappings have texts as keys, none of them twice. -/
inductive Plain : Value → Prop
  | leaf {v : Value} (list : ∀ items, v ≠ .list items) (map : ∀ entries, v ≠ .map entries)
      (knot : ∀ label body, v ≠ .knot label body) (again : ∀ label form, v ≠ .again label form) :
      Plain v
  | list {items : List Value} (all : ∀ v ∈ items, Plain v) : Plain (.list items)
  | map {entries : Entries Value} (names : entries.names.Nodup) (all : ∀ e ∈ entries, Plain e.2) :
      Plain (.map (ofEntries entries))

theorem tupledEntries_ofEntries (entries : Entries Value) :
    tupledEntries (ofEntries entries) = ofEntries (entries.map fun e => (e.1, e.2.tupled)) := by
  induction entries with
  | nil => rfl
  | cons e rest ih =>
    rw [ofEntries, List.map_cons, ← ofEntries, tupledEntries, ih]
    rfl

theorem freezeAll_eq_tupledAll {items : List Value} (h : ∀ v ∈ items, v.freeze = .ok v.tupled) :
    freezeAll items = .ok (tupledAll items) := by
  induction items with
  | nil => rfl
  | cons v rest ih =>
    obtain ⟨hv, hrest⟩ := List.forall_mem_cons.mp h
    rw [freezeAll, hv, ih hrest]
    rfl

theorem freezeEntries_ofEntries {entries : Entries Value}
    (h : ∀ e ∈ entries, e.2.freeze = .ok e.2.tupled) (done : Entries Value) :
    freezeEntries (ofEntries entries) done =
      .ok (done.putAll (entries.map fun e => (e.1, e.2.tupled))) := by
  induction entries generalizing done with
  | nil => rfl
  | cons e rest ih =>
    obtain ⟨he, hrest⟩ := List.forall_mem_cons.mp h
    rw [ofEntries, List.map_cons, ← ofEntries, freezeEntries, he]
    exact ih hrest _

theorem freezeEntries_of_nodup {entries : Entries Value} (hnames : entries.names.Nodup)
    (h : ∀ e ∈ entries, e.2.freeze = .ok e.2.tupled) :
    freezeEntries (ofEntries entries) [] = .ok (entries.map fun e => (e.1, e.2.tupled)) := by
  have hsame : Entries.names (entries.map fun e => (e.1, e.2.tupled)) = entries.names := by
    simp [Entries.names, Function.comp_def]
  rw [← hsame] at hnames
  exact (freezeEntries_ofEntries h []).trans
    (congrArg Except.ok (Entries.ofList_of_nodup hnames))

/-- Freezing a plain value comes to an end and makes tuples of its lists. -/
theorem Plain.freeze_eq {v : Value} (h : v.Plain) : v.freeze = .ok v.tupled := by
  induction h with
  | @leaf v list map knot again =>
    cases v with
    | list items => exact absurd rfl (list items)
    | map entries => exact absurd rfl (map entries)
    | knot label body => exact absurd rfl (knot label body)
    | again label form => exact absurd rfl (again label form)
    | _ => rfl
  | @list items all ih =>
    rw [freeze, freezeAll_eq_tupledAll ih]
    rfl
  | @map entries names all ih =>
    rw [freeze, freezeEntries_of_nodup names ih, tupled, tupledEntries_ofEntries]
    rfl

end Value

/-! ## Nodes and their documents -/

namespace Entry

/-- A node that can be written: the numbers of its span start at one, and its annotations and
attributes have names that differ. -/
structure Writable (e : Entry Kind) : Prop where
  positive : e.span.Positive
  annotations : e.annotations.names.Nodup
  attributes : e.attributes.names.Nodup
  plain : ∀ a ∈ e.attributes, a.2.Plain

/-- A node with the lists among its attributes as tuples. -/
def tupled (e : Entry Kind) : Entry Kind :=
  { e with attributes := e.attributes.map fun a => (a.1, a.2.tupled) }

end Entry

namespace Document

/-- A value stands for a collection: it is that collection, or null if the collection is empty. -/
def StandsFor (whole v : Value) : Prop := v = whole ∨ whole.truthy = false ∧ v = .null

/-- Annotations are written as a mapping from names to lists of arguments, or as a list of names if
none of them has arguments. -/
inductive WritesAnnotations (annotations : Entries (List String)) (v : Value) : Prop
  | mapping (stands : StandsFor
      (.map (annotations.map fun a => (.str a.1, .list (a.2.map .str)))) v)
  | names (bare : ∀ a ∈ annotations, a.2 = [])
      (list : v = .list (annotations.map fun a => .str a.1))

/-- The entries of a document say what a node is, its children aside. -/
structure WritesEntry (e : Entry Kind) (entries : List (Value × Value)) : Prop where
  kind : Value.entry? "kind" entries = some (.str e.kind.name)
  name : (Value.map entries).field "name" = e.name.elim .null .str
  span : WritesSpan e.span ((Value.map entries).field "span")
  annotations : WritesAnnotations e.annotations ((Value.map entries).field "annotations")
  attributes : StandsFor (.map (Value.ofEntries e.attributes))
    ((Value.map entries).field "attributes")

/-- Documents write a forest: one for each tree, with those of the trees below as its children. -/
inductive WritesForest : List Node → List Value → Prop
  | nil : WritesForest [] []
  | cons {e : Entry Kind} {ts us : List Node} {entries : List (Value × Value)}
      {below beside : List Value} (own : WritesEntry e entries)
      (children : StandsFor (.list below) ((Value.map entries).field "children"))
      (under : WritesForest ts below) (after : WritesForest us beside) :
      WritesForest (.node e ts :: us) (.map entries :: beside)

/-- The entries of a document with all fields of a node, its span as a list. -/
def entriesOf (e : Entry Kind) (below : List Value) : List (Value × Value) :=
  [(.str "kind", .str e.kind.name), (.str "name", e.name.elim .null .str),
   (.str "span",
    .list [.int e.span.startLine, .int e.span.startCol, .int e.span.endLine, .int e.span.endCol]),
   (.str "annotations", .map (e.annotations.map fun a => (.str a.1, .list (a.2.map .str)))),
   (.str "attributes", .map (Value.ofEntries e.attributes)), (.str "children", .list below)]

/-- Every forest can be written. -/
theorem exists_writesForest (roots : List Node) :
    ∃ documents, WritesForest roots documents := by
  induction roots using Tree.forest_induction with
  | nil => exact ⟨[], .nil⟩
  | cons e ts us ihBelow ihBeside =>
    obtain ⟨below, hbelow⟩ := ihBelow
    obtain ⟨beside, hbeside⟩ := ihBeside
    have hentry : WritesEntry e (entriesOf e below) :=
      ⟨rfl, rfl, .list rfl, .mapping (.inl rfl), .inl rfl⟩
    exact ⟨.map (entriesOf e below) :: beside, .cons hentry (.inl rfl) hbelow hbeside⟩

/-! ## Reading what is written -/

theorem readAnnotations_map {entries : List (Value × Value)} {read : List (String × List String)}
    (h : (entries.mapM fun e => readAnnotationEntry e.1 e.2) = .ok read) :
    readAnnotations (.map entries) = .ok (Entries.ofList read) := by
  cases entries with
  | nil =>
    cases h
    rfl
  | cons e rest =>
    change (Stop.writing ((e :: rest).mapM fun e => readAnnotationEntry e.1 e.2) >>= _) = _
    rw [h]
    rfl

theorem readAnnotations_list {names : List Value} {read : List (String × List String)}
    (h : (names.mapM fun n => readAnnotationEntry n .null) = .ok read) :
    readAnnotations (.list names) = .ok (Entries.ofList read) := by
  cases names with
  | nil =>
    cases h
    rfl
  | cons n rest =>
    change (Stop.writing ((n :: rest).mapM fun n => readAnnotationEntry n .null) >>= _) = _
    rw [h]
    rfl

theorem readAnnotationEntry_str (name : String) (args : List String) :
    readAnnotationEntry (.str name) (.list (args.map .str)) = .ok (name, args) := by
  have hargs : readArguments (.list (args.map .str)) = .ok args :=
    mapM_map_eq_ok fun _ _ => rfl
  change (readArguments (.list (args.map .str)) >>= fun read => pure (name, read)) = _
  rw [hargs]
  rfl

theorem readAnnotations_of_writes {annotations : Entries (List String)} {v : Value}
    (h : WritesAnnotations annotations v) (hnodup : annotations.names.Nodup) :
    readAnnotations v = .ok annotations := by
  rw [← Entries.ofList_of_nodup hnodup]
  rcases h with ⟨rfl | ⟨hempty, rfl⟩⟩ | ⟨hbare, rfl⟩
  · exact readAnnotations_map (mapM_map_eq_ok fun a _ => readAnnotationEntry_str a.1 a.2)
  · have hnil : annotations = [] := by simpa [Value.truthy] using hempty
    rw [hnil]
    rfl
  · refine readAnnotations_list (mapM_map_eq_ok fun a ha => ?_)
    rw [← Prod.eta a, hbare a ha]
    rfl

theorem attributeEntries_of_stands {entries : List (Value × Value)} {v : Value}
    (h : StandsFor (.map entries) v) : attributeEntries v = .ok entries := by
  rcases h with rfl | ⟨hempty, rfl⟩
  · cases entries with
    | nil => rfl
    | cons e rest => rfl
  · have hnil : entries = [] := by simpa [Value.truthy] using hempty
    rw [hnil]
    rfl

theorem readAttributes_ofEntries {attributes : Entries Value} (hnodup : attributes.names.Nodup)
    (hplain : ∀ a ∈ attributes, a.2.Plain) :
    readAttributes (Value.ofEntries attributes) =
      .ok (attributes.map fun a => (a.1, a.2.tupled)) := by
  rw [readAttributes, Value.freezeEntries_of_nodup hnodup fun a ha => (hplain a ha).freeze_eq]
  rfl

theorem childDocuments_of_stands {entries : List (Value × Value)} {below : List Value}
    (h : StandsFor (.list below) ((Value.map entries).field "children")) :
    childDocuments (.map entries) = below := by
  unfold childDocuments
  rcases h with h | ⟨hempty, h⟩
  · rw [h]
    rfl
  · have hnil : below = [] := by simpa [Value.truthy] using hempty
    rw [h, hnil]
    rfl

/-- A document that writes a node is read to it, as far as its children can be read. -/
theorem readNode_of_writes {file : String} {e : Entry Kind} {entries : List (Value × Value)}
    {below : List Value} (hfile : e.span.file = file) (hwritable : e.Writable)
    (hentry : WritesEntry e entries)
    (hchildren : StandsFor (.list below) ((Value.map entries).field "children"))
    (turns : Nat) (path : NodePath) :
    readNode file turns path (.map entries) =
      readChildren file turns path 0 below >>= fun ts => .ok (.node e.tupled.submitted ts) := by
  have hspan := readSpan_eq_ok_iff.mpr ⟨hfile, hwritable.positive, hentry.span⟩
  have hannotations := readAnnotations_of_writes hentry.annotations hwritable.annotations
  have hattributes := attributeEntries_of_stands hentry.attributes
  have hfacts := readAttributes_ofEntries hwritable.attributes hwritable.plain
  have hopen : ∀ label body, (Value.map entries).field "children" ≠ .knot label body := by
    intro label body hknot
    rcases hchildren with h | ⟨-, h⟩
    · rw [h] at hknot
      cases hknot
    · rw [h] at hknot
      cases hknot
  have hlist : ((Value.map entries).field "children").truthy = true →
      ∃ items, ((Value.map entries).field "children").unfold = .list items := by
    rcases hchildren with h | ⟨-, h⟩
    · rw [h]
      exact fun _ => ⟨below, rfl⟩
    · rw [h]
      exact fun htruthy => by cases htruthy
  have hname : readName ((Value.map entries).field "name") = .ok e.name := by
    rw [hentry.name]
    cases e.name with
    | none => rfl
    | some name => rfl
  rw [readNode_map hentry.kind hspan hname hannotations hattributes hfacts hopen hlist,
    childDocuments_of_stands hchildren]
  rfl

end Document

/-! ## Forests -/

namespace Tree

variable {α β : Type}

mutual

/-- A tree with each value changed. -/
def map (f : α → β) : Tree α → Tree β
  | node v ts => node (f v) (mapForest f ts)

/-- The trees of a forest with each value changed. -/
def mapForest (f : α → β) : List (Tree α) → List (Tree β)
  | [] => []
  | t :: ts => map f t :: mapForest f ts

end

theorem mapForest_cons (f : α → β) (v : α) (ts us : List (Tree α)) :
    mapForest f (node v ts :: us) = node (f v) (mapForest f ts) :: mapForest f us := by
  rw [mapForest, map]

theorem mapForest_eq_map (f : α → β) (ts : List (Tree α)) : mapForest f ts = ts.map (map f) := by
  induction ts with
  | nil => rfl
  | cons t ts ih => rw [mapForest, ih, List.map_cons]

theorem value_map (f : α → β) (t : Tree α) : (map f t).value = f t.value := by
  cases t with
  | node v ts => rw [map, value, value]

/-- A walk meets the changed values in the same order and at the same depth. -/
theorem visitsAmong_mapForest (f : α → β) (ts : List (Tree α)) {chain : List (Tree α)}
    {chain' : List (Tree β)} (hchain : chain'.length = chain.length) :
    (visitsAmong chain' (mapForest f ts)).map (fun w => (w.ancestors.length, w.tree.value)) =
      (visitsAmong chain ts).map fun w => (w.ancestors.length, f w.tree.value) := by
  induction ts using forest_induction generalizing chain chain' with
  | nil => rfl
  | cons v ts us ihBelow ihBeside =>
    have hbelow : (chain' ++ [node (f v) (mapForest f ts)]).length =
        (chain ++ [node v ts]).length := by simp [hchain]
    rw [mapForest_cons, visitsAmong_cons, visitsAmong_cons, List.cons_append, List.cons_append,
      List.map_cons, List.map_cons, List.map_append, List.map_append, ihBelow hbelow,
      ihBeside hchain]
    simp [hchain, value]

end Tree

namespace Document

/-- Documents that write a forest are read to it, wherever they stand. -/
theorem mapM_readNode_of_writes {file : String} {roots : List Node} {documents : List Value}
    (h : WritesForest roots documents) {chain : List Node}
    (heach : ∀ w ∈ Tree.visitsAmong chain roots,
      w.tree.value.span.file = file ∧ w.tree.value.Writable)
    (turns : Nat) (place : Nat → NodePath) (first : Nat) :
    ((documents.zipIdx first).mapM fun d => readNode file turns (place d.2) d.1) =
      .ok (Tree.mapForest Entry.submitted (Tree.mapForest Entry.tupled roots)) := by
  induction h generalizing chain place first with
  | nil => rfl
  | @cons e ts us entries below beside own children under after ihUnder ihAfter =>
    rw [Tree.visitsAmong_cons, List.cons_append, List.forall_mem_cons,
      List.forall_mem_append] at heach
    obtain ⟨⟨hfile, hwritable⟩, hbelow, hbeside⟩ := heach
    -- The documents of the children are read like those beside them, one level further down.
    rw [List.zipIdx_cons, List.mapM_cons, ihAfter hbeside,
      readNode_of_writes hfile hwritable own children, readChildren_eq, ihUnder hbelow,
      Tree.mapForest_cons, Tree.mapForest_cons]
    rfl

end Document

theorem headings_submitted (ts : List Node) :
    (Tree.mapForest Entry.submitted ts).map (fun t => t.value.heading) = ts.map Tree.heading := by
  rw [Tree.mapForest_eq_map, List.map_map]
  refine List.map_congr_left fun t _ => ?_
  rw [Function.comp, Tree.value_map]
  rfl

namespace Laid

variable {file : String}

/-- A layout is a matter of the spans alone. -/
theorem mapForest {f : Entry Kind → Entry Kind} (hf : ∀ e, (f e).span = e.span) {ts : List Node}
    (h : Laid file ts) : Laid file (Tree.mapForest f ts) := by
  have hspan : ∀ t : Node, (Tree.map f t).span = t.span := by
    intro t
    rw [Tree.span, Tree.value_map, hf]
    rfl
  induction h with
  | nil => exact .nil
  | @cons e ts us own upright inside under apart beside ihUnder ihBeside =>
    rw [Tree.mapForest_cons]
    refine .cons (by rwa [hf]) (by rwa [hf]) ?_ ihUnder ?_ ihBeside
    · intro t ht
      rw [Tree.mapForest_eq_map] at ht
      obtain ⟨t', ht', rfl⟩ := List.mem_map.mp ht
      rw [hf, hspan]
      exact inside t' ht'
    · intro u hu
      rw [Tree.mapForest_eq_map, List.head?_map] at hu
      obtain ⟨u', hu', rfl⟩ := Option.map_eq_some_iff.mp hu
      rw [hf, hspan]
      exact apart u' hu'

/-- Neighbours in a laid-out forest stand apart. -/
theorem isChain_apart {ts : List Node} (h : Laid file ts) :
    (ts.map Tree.heading).IsChain fun a b => Apart a.span b.span := by
  induction ts with
  | nil => exact .nil
  | cons t us ih =>
    cases h with
    | @cons e ts us own upright inside under apart beside =>
      rcases us with _ | ⟨u, us⟩
      · exact .singleton _
      rw [List.map_cons, List.map_cons, List.isChain_cons_cons, ← List.map_cons]
      refine ⟨?_, ih beside⟩
      have hnext := apart u rfl
      cases beside with
      | cons own' upright' =>
        exact (Span.apart_iff (own.trans own'.symm) upright upright').mpr hnext

/-- The checks let a laid-out forest pass, and it comes out as it is. -/
theorem checkAll_submitted {ts : List Node} (h : Laid file ts) :
    Draft.checkAll file (Tree.mapForest Entry.submitted ts) = .ok ts := by
  induction h with
  | nil => rfl
  | @cons e ts us own upright inside under apart beside ihUnder ihBeside =>
    have hchildren : ∀ c ∈ ts.map Tree.heading, e.span.contains c.span = true := by
      intro c hc
      obtain ⟨t, ht, rfl⟩ := List.mem_map.mp hc
      exact inside t ht
    have hcheck : e.submitted.check file (ts.map Tree.heading) = .ok e :=
      Entry.check_eq_ok_iff.mpr ⟨e.kind, rfl, rfl, own, upright, hchildren, under.isChain_apart⟩
    rw [Tree.mapForest_cons, Draft.checkAll, Draft.check, headings_submitted, hcheck, ihUnder,
      ihBeside]
    rfl

theorem checkRoots_submitted {ts : List Node} (h : Laid file ts) :
    Draft.checkRoots file (Tree.mapForest Entry.submitted ts) = .ok ts := by
  have hsiblings := (checkSiblings_eq_ok_iff none _).mpr h.isChain_apart
  rw [Draft.checkRoots, headings_submitted, hsiblings, h.checkAll_submitted]
  rfl

end Laid

/-- A forest that is laid out in a file and whose nodes can be written. -/
structure WellFormed (file : String) (roots : List Node) : Prop where
  laid : Laid file roots
  writable : ∀ w ∈ Tree.walk roots, w.tree.value.Writable

open Document in
/-- A well-formed forest can be written, and when it is written in a document of its file it is read
back: the walk meets the same nodes at the same depths, with the lists among their attributes as
tuples. -/
theorem written_forests_are_read_back (origin file : String) (roots : List Node)
    (hformed : WellFormed file roots) :
    (∃ documents, WritesForest roots documents) ∧
    ∀ v documents, LeadsTo v file documents → v.field "suppressions" = .null →
      WritesForest roots documents → ∃ m, Model.ofDocument origin v = .ok m ∧ m.file = file ∧
        m.walk.map (fun w => (w.ancestors.length, w.tree.value)) =
          (Tree.walk roots).map fun w => (w.ancestors.length, w.tree.value.tupled) := by
  refine ⟨exists_writesForest roots, ?_⟩
  intro v documents hleads hsuppressions hwrites
  have heach : ∀ w ∈ Tree.visitsAmong [] roots,
      w.tree.value.span.file = file ∧ w.tree.value.Writable := by
    intro w hw
    refine ⟨(hformed.laid.of_mem_visits [] w hw).1, hformed.writable w ?_⟩
    rwa [Tree.walk_eq_visitsAmong]
  have hroots : readRoots file origin 0 documents =
      .ok (Tree.mapForest Entry.submitted (Tree.mapForest Entry.tupled roots)) := by
    rw [readRoots_eq]
    exact mapM_readNode_of_writes hwrites heach maxTurns (fun i => ⟨origin, i, []⟩) 0
  -- Freezing the attributes moves no span, so what is read passes the checks as it is.
  have hlaid : Laid file (Tree.mapForest Entry.tupled roots) :=
    hformed.laid.mapForest (f := Entry.tupled) fun _ => rfl
  have hdeclared : readSuppressions file origin (v.field "suppressions") = .ok [] := by
    rw [hsuppressions]
    rfl
  obtain ⟨lines, hlines⟩ := hleads.exists_readLines origin
  refine ⟨_, Model.ofDocument_eq_ok_iff.mpr ⟨file, lines, _, [], _, ⟨hleads.exists_unfold,
    hleads.readFile?_eq, hlines, ⟨documents, hleads.rootDocuments_eq origin, hroots⟩, hdeclared⟩,
    hlaid.checkRoots_submitted, rfl⟩, rfl, ?_⟩
  rw [Model.walk, Tree.walk_eq_visitsAmong, Tree.walk_eq_visitsAmong]
  exact Tree.visitsAmong_mapForest Entry.tupled roots rfl

/-- A card with a property, and a function right behind it. -/
def cardForest : List Node :=
  [.node ⟨.component, some "Card", ⟨"A.swift", 1, 1, 9, 1⟩,
      [("MainActor", []), ("Since", ["17", "0"])],
      [("tags", .list [.str "a", .list []]), ("limits", .map [(.str "w", .list [.int 1])])]⟩
    [.node ⟨.property, none, ⟨"A.swift", 1, 1, 3, 5⟩, [("State", [])], []⟩ []],
   .node ⟨.function, some "", ⟨"A.swift", 9, 2, 9, 9⟩, [], []⟩ []]

/-- The card in documents, with both forms of spans and annotations, and fields left out. -/
def cardDocuments : List Value :=
  [.map [(.str "children", .list
      [.map [(.str "kind", .str "property"), (.str "span", .list [.int 1, .int 1, .int 3, .int 5]),
        (.str "annotations", .list [.str "State"])]]),
    (.str "kind", .str "component"), (.str "name", .str "Card"),
    (.str "span", .map [(.str "end_line", .int 9), (.str "end_col", .int 1),
      (.str "start_line", .int 1), (.str "start_col", .int 1)]),
    (.str "annotations", .map [(.str "MainActor", .list []),
      (.str "Since", .list [.str "17", .str "0"])]),
    (.str "attributes", .map [(.str "tags", .list [.str "a", .list []]),
      (.str "limits", .map [(.str "w", .list [.int 1])])])],
   .map [(.str "kind", .str "function"), (.str "name", .str ""),
    (.str "span", .list [.int 9, .int 2, .int 9, .int 9]), (.str "attributes", .map []),
    (.str "children", .null)]]

theorem cardForest_is_read_back :
    Document.LeadsTo (documentOf cardDocuments) "A.swift" cardDocuments ∧
    (documentOf cardDocuments).field "suppressions" = .null ∧
    WellFormed "A.swift" cardForest ∧ Document.WritesForest cardForest cardDocuments ∧
    ∃ m, Model.ofDocument "m.yml" (documentOf cardDocuments) = .ok m ∧ m.file = "A.swift" ∧
      m.walk.map (fun w => (w.ancestors.length, w.tree.value)) =
        (Tree.walk cardForest).map fun w => (w.ancestors.length, w.tree.value.tupled) := by
  have hlaid : Laid "A.swift" cardForest :=
    .cons rfl (by decide) (by decide) (.cons rfl (by decide) (by simp) .nil (by simp) .nil)
      (by decide) (.cons rfl (by decide) (by simp) .nil (by simp) .nil)
  have htags : (Value.list [.str "a", .list []]).Plain := by
    refine .list (List.forall_mem_cons.mpr ⟨.leaf (by simp) (by simp) (by simp) (by simp), ?_⟩)
    exact List.forall_mem_singleton.mpr (.list (by simp))
  have hlimits : (Value.map (Value.ofEntries [("w", .list [.int 1])])).Plain := by
    refine .map (by decide) (List.forall_mem_singleton.mpr (.list ?_))
    exact List.forall_mem_singleton.mpr (.leaf (by simp) (by simp) (by simp) (by simp))
  have hformed : WellFormed "A.swift" cardForest := by
    refine ⟨hlaid, ?_⟩
    rw [Tree.walk_eq_visitsAmong]
    refine List.forall_mem_cons.mpr ⟨⟨by constructor <;> decide, by decide, by decide, ?_⟩,
      List.forall_mem_cons.mpr ⟨⟨by constructor <;> decide, by decide, by decide, ?_⟩,
        List.forall_mem_singleton.mpr ⟨by constructor <;> decide, by decide, by decide, ?_⟩⟩⟩
    · exact List.forall_mem_cons.mpr ⟨htags, List.forall_mem_singleton.mpr hlimits⟩
    · exact List.forall_mem_nil _
    · exact List.forall_mem_nil _
  have hwrites : Document.WritesForest cardForest cardDocuments :=
    .cons ⟨rfl, rfl, .map rfl rfl rfl rfl, .mapping (.inl rfl), .inl rfl⟩ (.inl rfl)
      (.cons ⟨rfl, rfl, .list rfl, .names (by simp) rfl, .inr ⟨rfl, rfl⟩⟩ (.inr ⟨rfl, rfl⟩)
        .nil .nil)
      (.cons ⟨rfl, rfl, .list rfl, .mapping (.inr ⟨rfl, rfl⟩), .inl rfl⟩ (.inr ⟨rfl, rfl⟩)
        .nil .nil)
  exact ⟨leadsTo_documentOf _, rfl, hformed, hwrites,
    (written_forests_are_read_back "m.yml" "A.swift" cardForest hformed).2 _ _
      (leadsTo_documentOf _) rfl hwrites⟩

end ComponentLint

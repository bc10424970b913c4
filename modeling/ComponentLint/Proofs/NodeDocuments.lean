-- The documents of nodes. One that is well made gives the fields of a node in
-- a form that can be read, and reading it is then up to the documents of its
-- children. Any other one is refused at its own place, and with it the whole
-- document of the file.
import ComponentLint.Proofs.DocumentFaults

namespace ComponentLint

open ComponentLint.Text

/-! ## Spans -/

/-- The numbers of a span start at one. -/
structure Span.Positive (s : Span) : Prop where
  startLine : 1 ≤ s.startLine
  startCol : 1 ≤ s.startCol
  endLine : 1 ≤ s.endLine
  endCol : 1 ≤ s.endCol

namespace Document

/-- A span is written as a list of its four numbers, or as a mapping that has them under their
names. -/
inductive WritesSpan (s : Span) (v : Value) : Prop
  | list (items : v.unfold =
      .list [.int s.startLine, .int s.startCol, .int s.endLine, .int s.endCol])
  | map (startLine : v.field? "start_line" = some (.int s.startLine))
      (startCol : v.field? "start_col" = some (.int s.startCol))
      (endLine : v.field? "end_line" = some (.int s.endLine))
      (endCol : v.field? "end_col" = some (.int s.endCol))

theorem spanOf_eq_ok_iff {file : String} {values : List Value} {s : Span} :
    spanOf file values = .ok s ↔ s.file = file ∧ s.Positive ∧
      values = [.int s.startLine, .int s.startCol, .int s.endLine, .int s.endCol] := by
  constructor
  · intro h
    unfold spanOf at h
    split at h
    · rename_i startLine startCol endLine endCol hvalues
      cases h
      simp only [List.map_eq_cons_iff, List.map_eq_nil_iff, positive?_eq_some_iff] at hvalues
      obtain ⟨a, rest, rfl, ⟨rfl, h1⟩, b, rest, rfl, ⟨rfl, h2⟩, c, rest, rfl, ⟨rfl, h3⟩, d, rest,
        rfl, ⟨rfl, h4⟩, rfl⟩ := hvalues
      exact ⟨rfl, ⟨h1, h2, h3, h4⟩, rfl⟩
    · obtain ⟨written, -, h⟩ := bind_eq_ok_iff.mp h
      cases h
  · rintro ⟨rfl, ⟨h1, h2, h3, h4⟩, rfl⟩
    simp [spanOf, positive?, h1, h2, h3, h4]

theorem requiredFields_cons_eq_ok_iff {v : Value} {name : String} {names : List String}
    {values : List Value} :
    requiredFields v (name :: names) = .ok values ↔ ∃ first rest, v.field? name = some first ∧
      requiredFields v names = .ok rest ∧ values = first :: rest := by
  rw [requiredFields]
  cases v.field? name with
  | none => simp [throw, throwThe, MonadExceptOf.throw]
  | some first =>
    dsimp only
    rw [bind_eq_ok_iff]
    constructor
    · rintro ⟨rest, hrest, hvalues⟩
      cases hvalues
      exact ⟨first, rest, rfl, hrest, rfl⟩
    · rintro ⟨first', rest, hfirst, hrest, rfl⟩
      cases hfirst
      exact ⟨rest, hrest, rfl⟩

/-- A span can be read exactly from what writes it, if its numbers start at one. -/
theorem readSpan_eq_ok_iff {file : String} {v : Value} {s : Span} :
    readSpan file v = .ok s ↔ s.file = file ∧ s.Positive ∧ WritesSpan s v := by
  unfold readSpan
  split
  · rename_i values hlist
    have hfield : ∀ key, v.field? key = none :=
      Value.field?_of_unfold_ne_map (by simp [hlist])
    rw [spanOf_eq_ok_iff]
    refine and_congr_right fun _ => and_congr_right fun _ => ?_
    constructor
    · rintro rfl
      exact .list hlist
    · rintro (hitems | ⟨hline, -, -, -⟩)
      · rw [hlist] at hitems
        exact Value.list.inj hitems
      · rw [hfield] at hline
        cases hline
  · rename_i entries hmap
    simp only [bind_eq_ok_iff, spanFields, requiredFields_cons_eq_ok_iff, spanOf_eq_ok_iff]
    constructor
    · rintro ⟨values, ⟨a, rest, ha, ⟨b, rest, hb, ⟨c, rest, hc, ⟨d, rest, hd, hrest, rfl⟩, rfl⟩,
        rfl⟩, rfl⟩, hfile, hpositive, hvalues⟩
      simp only [List.cons.injEq] at hvalues
      obtain ⟨rfl, rfl, rfl, rfl, -⟩ := hvalues
      exact ⟨hfile, hpositive, .map ha hb hc hd⟩
    · rintro ⟨hfile, hpositive, hitems | ⟨ha, hb, hc, hd⟩⟩
      · rw [hmap] at hitems
        cases hitems
      · exact ⟨_, ⟨_, _, ha, ⟨_, _, hb, ⟨_, _, hc, ⟨_, _, hd, rfl, rfl⟩, rfl⟩, rfl⟩, rfl⟩, hfile,
          hpositive, rfl⟩
  · rename_i hlist hmap
    simp only [reduceCtorEq, false_iff]
    rintro ⟨-, -, hitems | ⟨hline, -, -, -⟩⟩
    · exact hlist _ hitems
    · rw [Value.field?_of_unfold_ne_map hmap] at hline
      cases hline

/-! ## Annotations and attributes -/

theorem exists_readAnnotations_iff {v : Value} (hshort : v.isShort = true) :
    (∃ annotations, readAnnotations v = .ok annotations) ↔
      (v.truthy = true →
        (∃ names, v.unfold = .list names) ∨ ∃ entries, v.unfold = .map entries) := by
  have hunfold := Value.isShort_unfold hshort
  unfold readAnnotations
  by_cases htruthy : v.truthy = true
  · rw [if_pos htruthy]
    split
    · rename_i names hlist
      rw [hlist] at hunfold
      obtain ⟨read, hread⟩ :=
        (settles_bareAnnotations (Or.inr hunfold : False ∨ _)).exists_ok fun _ => id
      simp [hlist, hread, Stop.writing, bind, Except.bind, pure, Except.pure]
    · rename_i entries hmap
      rw [hmap] at hunfold
      obtain ⟨read, hread⟩ :=
        (settles_annotationEntries (Or.inr hunfold : False ∨ _)).exists_ok fun _ => id
      simp [hmap, hread, Stop.writing, bind, Except.bind, pure, Except.pure]
    · rename_i hlist hmap
      simpa [htruthy] using And.intro hlist hmap
  · simp [htruthy]

theorem exists_attributeEntries_iff {v : Value} :
    (∃ entries, attributeEntries v = .ok entries) ↔
      (v.truthy = true → ∃ entries, v.unfold = .map entries) := by
  unfold attributeEntries
  by_cases htruthy : v.truthy = true
  · rw [if_pos htruthy]
    split
    · rename_i entries hmap
      simp [hmap]
    · rename_i hmap
      simpa [htruthy] using hmap
  · simp [htruthy]

/-- Without knots and long integers, attributes can be frozen. -/
theorem exists_readAttributes {v : Value} (hfree : v.hasKnot = false) (hshort : v.isShort = true)
    {entries : List (Value × Value)}
    (h : attributeEntries (v.field "attributes") = .ok entries) :
    ∃ facts, readAttributes entries = .ok facts := by
  obtain ⟨hopen, hentries⟩ := (settles_attributeEntries (Value.knotFree_field _ hfree)
    (Or.inr (Value.isShort_field _ hshort) : False ∨ _)).of_eq_ok h
  unfold readAttributes
  obtain ⟨facts, hfacts⟩ := (Value.settles_freezeEntries entries hopen hentries []).exists_ok
    fun _ => And.right
  rw [hfacts]
  exact ⟨facts, rfl⟩

/-! ## Well-made documents -/

/-- A document gives the fields of a node: it is a mapping with a text as its kind and a span of
positive numbers; what counts as annotations, attributes or children is of the right form. -/
structure WellMade (v : Value) : Prop where
  mapping : ∃ entries, v.unfold = .map entries
  kind : ∃ kind, v.field? "kind" = some (.str kind)
  span : ∃ s : Span, s.Positive ∧ WritesSpan s (v.field "span")
  annotations : (v.field "annotations").truthy = true →
    (∃ names, (v.field "annotations").unfold = .list names) ∨
      ∃ entries, (v.field "annotations").unfold = .map entries
  attributes : (v.field "attributes").truthy = true →
    ∃ entries, (v.field "attributes").unfold = .map entries
  children : (v.field "children").truthy = true →
    ∃ items, (v.field "children").unfold = .list items

/-- Where the fields of a node can be read, the node is up to its children. -/
theorem readNode_map {file : String} {entries : List (Value × Value)} {kind : String}
    (hkind : Value.entry? "kind" entries = some (.str kind))
    {span : Span} (hspan : readSpan file ((Value.map entries).field "span") = .ok span)
    {name : Option String} (hname : readName ((Value.map entries).field "name") = .ok name)
    {annotations : Entries (List String)}
    (hannotations : readAnnotations ((Value.map entries).field "annotations") = .ok annotations)
    {attributes : List (Value × Value)}
    (hattributes : attributeEntries ((Value.map entries).field "attributes") = .ok attributes)
    {facts : Entries Value} (hfacts : readAttributes attributes = .ok facts)
    (hopen : ∀ label body, (Value.map entries).field "children" ≠ .knot label body)
    (hchildren : ((Value.map entries).field "children").truthy = true →
      ∃ items, ((Value.map entries).field "children").unfold = .list items)
    (turns : Nat) (path : NodePath) :
    readNode file turns path (.map entries) =
      readChildren file turns path 0 (childDocuments (.map entries)) >>= fun ts =>
        .ok (.node ⟨kind, name, span, annotations, facts⟩ ts) := by
  rw [readNode_of_kind file turns path hkind hopen, bind_mapError_ok hspan, bind_mapError_ok hname,
    bind_mapError_ok hannotations, bind_mapError_ok hattributes,
    bind_mapError_ok (listedChildren_of_list hchildren), hfacts]
  rfl

theorem exists_refused {stop : Stop NodeFault} (h : stop = .longInteger → False) :
    ∃ fault, stop = .refused fault := by
  cases stop with
  | refused fault => exact ⟨fault, rfl⟩
  | longInteger => exact absurd rfl h

section

variable {v : Value} (hfree : v.hasKnot = false) (hshort : v.isShort = true)
include hfree hshort

/-- A node with a well-made document is up to the documents of its children. -/
theorem WellMade.exists_readNode (h : WellMade v) (file : String) :
    ∃ e : Entry String, ∀ turns path, readNode file turns path v =
      readChildren file turns path 0 (childDocuments v) >>= fun ts => .ok (.node e ts) := by
  obtain ⟨⟨entries, hmap⟩, ⟨kind, hkind⟩, ⟨s, hpositive, hspan⟩, hannotations, hattributes,
    hchildren⟩ := h
  rw [Value.unfold_of_knotFree hfree] at hmap
  subst hmap
  have hfield : ∀ key, False ∨ ((Value.map entries).field key).isShort = true :=
    fun key => Or.inr (Value.isShort_field key hshort)
  obtain ⟨name, hname⟩ := (settles_readName (hfield "name")).exists_ok fun _ => id
  obtain ⟨annotations, hannotations⟩ :=
    (exists_readAnnotations_iff (Value.isShort_field _ hshort)).mpr hannotations
  obtain ⟨attributes, hattributes⟩ := exists_attributeEntries_iff.mpr hattributes
  obtain ⟨facts, hfacts⟩ := exists_readAttributes hfree hshort hattributes
  have hspan : readSpan file ((Value.map entries).field "span") = .ok { s with file } :=
    readSpan_eq_ok_iff.mpr ⟨rfl, ⟨hpositive.1, hpositive.2, hpositive.3, hpositive.4⟩, by
      rcases hspan with hlist | ⟨ha, hb, hc, hd⟩
      · exact .list hlist
      · exact .map ha hb hc hd⟩
  exact ⟨_, readNode_map hkind hspan hname hannotations hattributes hfacts
    (Value.ne_knot_of_knotFree (Value.knotFree_field _ hfree)) hchildren⟩

/-- A document that is not well made is refused at its own place. -/
theorem exists_readNode_of_not_wellMade (h : ¬ WellMade v) (file : String) (turns : Nat)
    (path : NodePath) : ∃ fault, readNode file turns path v = .error (.node path fault) := by
  by_cases hmap : ∃ entries, v = .map entries
  swap
  · exact ⟨.notMapping, readNode_of_not_map file turns path hfree (not_exists.mp hmap)⟩
  obtain ⟨entries, rfl⟩ := hmap
  by_cases hkind : ∃ kind, Value.entry? "kind" entries = some (.str kind)
  swap
  · exact ⟨.noKind, readNode_of_no_kind file turns path (not_exists.mp hkind)⟩
  obtain ⟨kind, hkind⟩ := hkind
  have hfield : ∀ key, False ∨ ((Value.map entries).field key).isShort = true :=
    fun key => Or.inr (Value.isShort_field key hshort)
  rw [readNode_of_kind file turns path hkind
    (Value.ne_knot_of_knotFree (Value.knotFree_field _ hfree))]
  -- The first field that cannot be read is told of; the children are the last to be looked at.
  rcases ok_or_error (readSpan file ((Value.map entries).field "span")) with
    ⟨s, hspan⟩ | ⟨stop, hspan⟩
  swap
  · obtain ⟨fault, rfl⟩ :=
      exists_refused ((settles_readSpan file (hfield "span")).of_eq_error hspan)
    exact ⟨fault, bind_mapError_error hspan _⟩
  obtain ⟨name, hname⟩ := (settles_readName (hfield "name")).exists_ok fun _ => id
  rw [bind_mapError_ok hspan, bind_mapError_ok hname]
  rcases ok_or_error (readAnnotations ((Value.map entries).field "annotations")) with
    ⟨annotations, hannotations⟩ | ⟨stop, hannotations⟩
  swap
  · obtain ⟨fault, rfl⟩ :=
      exists_refused ((settles_readAnnotations (hfield "annotations")).of_eq_error hannotations)
    exact ⟨fault, bind_mapError_error hannotations _⟩
  rw [bind_mapError_ok hannotations]
  rcases ok_or_error (attributeEntries ((Value.map entries).field "attributes")) with
    ⟨attributes, hattributes⟩ | ⟨fault, hattributes⟩
  swap
  · exact ⟨fault, bind_mapError_error hattributes _⟩
  rw [bind_mapError_ok hattributes]
  obtain ⟨-, hpositive, hwrites⟩ := readSpan_eq_ok_iff.mp hspan
  have hchildren : ¬ (((Value.map entries).field "children").truthy = true →
      ∃ items, ((Value.map entries).field "children").unfold = .list items) :=
    fun hchildren => h ⟨⟨entries, rfl⟩, ⟨kind, hkind⟩, ⟨s, hpositive, hwrites⟩,
      (exists_readAnnotations_iff (Value.isShort_field _ hshort)).mp ⟨_, hannotations⟩,
      exists_attributeEntries_iff.mp ⟨_, hattributes⟩, hchildren⟩
  exact ⟨.children, bind_mapError_error (listedChildren_of_not_list hchildren) _⟩

end

/-! ## The document around the nodes -/

/-- What comes before the nodes of a document can be read: the name of a file that is not blank,
lines of source if there are any. The nodes are a list. -/
structure LeadsTo (v : Value) (file : String) (documents : List Value) : Prop where
  file_eq : v.field? "file" = some (.str file)
  named : allBlank file.toList = false
  source : ∀ w, v.field? "source" = some w → ∃ s, w = .str s
  nodes : v.field? "nodes" = some (.list documents)

namespace LeadsTo

variable {v : Value} {file : String} {documents : List Value} (h : LeadsTo v file documents)
include h

theorem exists_unfold : ∃ entries, v.unfold = .map entries :=
  Value.exists_unfold_of_field? h.file_eq

theorem readFile?_eq : readFile? v = some file := by
  simp [readFile?, Value.field, h.file_eq, Value.text?, h.named]

theorem exists_readLines (origin : String) : ∃ lines, readLines origin v = .ok lines := by
  unfold readLines
  split
  · exact ⟨_, rfl⟩
  · exact ⟨_, rfl⟩
  · rename_i w hstr hw
    obtain ⟨s, rfl⟩ := h.source w hw
    exact absurd rfl (hstr s)

theorem rootDocuments_eq (origin : String) : rootDocuments origin v = .ok documents := by
  unfold rootDocuments
  rw [h.nodes]
  rfl

/-- Nodes that are refused are all that is told of the document. -/
theorem ofDocument_of_refused {origin : String} {fault : LoadFault}
    (hroots : readRoots file origin 0 documents = .error fault) :
    Model.ofDocument origin v = .error fault := by
  obtain ⟨entries, hmap⟩ := h.exists_unfold
  obtain ⟨lines, hlines⟩ := h.exists_readLines origin
  simp only [Model.ofDocument, hmap, h.readFile?_eq, bind_eq_error_iff]
  exact .inr ⟨lines, hlines, .inr ⟨documents, h.rootDocuments_eq origin, .inl hroots⟩⟩

end LeadsTo

end Document

/-- The document of a file with given nodes. -/
def documentOf (nodes : List Value) : Value :=
  .map [(.str "file", .str "A.swift"), (.str "nodes", .list nodes)]

theorem leadsTo_documentOf (nodes : List Value) :
    Document.LeadsTo (documentOf nodes) "A.swift" nodes := by
  refine ⟨rfl, by decide, ?_, rfl⟩
  intro w hw
  cases hw

end ComponentLint

-- Where a document is refused. The fields of a node are looked at before the
-- nodes below it, and those before the ones beside it, so that of all node
-- documents that are not well made the first one in pre-order is named. That
-- takes documents that do not hold themselves and no integers that are too long
-- to be written.
import ComponentLint.Proofs.NodeDocuments

namespace ComponentLint

namespace Document

/-! ## Places of node documents -/

/-- The node document that a path leads to, down from a given one: each index is the place among
the children. -/
def documentBelow? (v : Value) : List Nat → Option Value
  | [] => some v
  | i :: path => (childDocuments v)[i]?.bind fun u => documentBelow? u path

/-- The node document that a path leads to: the place among the top-level ones, and the way down
from there. -/
def documentAt? (documents : List Value) : List Nat → Option Value
  | [] => none
  | i :: path => documents[i]?.bind fun v => documentBelow? v path

/-- A path leads to a node document that is not well made, and no path before it does. The order of
paths is that of a walk in pre-order: what is below a node comes after it, and before what is beside
it. -/
structure FirstMalformed (at? : List Nat → Option Value) (path : List Nat) : Prop where
  malformed : ∃ v, at? path = some v ∧ ¬ WellMade v
  first : ∀ earlier < path, ∀ v, at? earlier = some v → WellMade v

/-- All node documents are well made. -/
def AllWellMade (at? : List Nat → Option Value) : Prop := ∀ path v, at? path = some v → WellMade v

/-- Documents that are read one after the other, where each is read as far as all is well made with
it and else refused at its first fault: they are refused at the first fault of all. -/
theorem firstMalformed_of_mapM (place : Nat → List Nat → NodePath) {documents : List Value}
    {read : Value × Nat → Except LoadFault Draft}
    (hok : ∀ v ∈ documents, ∀ i t, read (v, i) = .ok t → AllWellMade (documentBelow? v))
    (hrefused : ∀ v ∈ documents, ∀ i fault, read (v, i) = .error fault →
      ∃ below why, FirstMalformed (documentBelow? v) below ∧ fault = .node (place i below) why)
    {fault : LoadFault} (h : documents.zipIdx.mapM read = .error fault) :
    ∃ i below why, FirstMalformed (documentAt? documents) (i :: below) ∧
      fault = .node (place i below) why := by
  obtain ⟨before, ⟨v, i⟩, after, hsplit, hbefore, hfails⟩ := mapM_eq_error_iff.mp h
  have hat : ∀ j : Nat, documents.zipIdx[j]? = documents[j]?.map fun u => (u, j) := by
    intro j
    rw [List.getElem?_zipIdx, Nat.zero_add]
  have hi : documents[before.length]? = some v ∧ i = before.length := by
    have hv := hat before.length
    rw [hsplit, List.getElem?_append_right (Nat.le_refl _), Nat.sub_self] at hv
    obtain ⟨u, hu, huv⟩ := Option.map_eq_some_iff.mp hv.symm
    cases huv
    exact ⟨hu, rfl⟩
  obtain ⟨hv, rfl⟩ := hi
  obtain ⟨below, why, ⟨⟨w, hw, hmalformed⟩, hfirst⟩, rfl⟩ :=
    hrefused v (List.mem_of_getElem? hv) _ _ hfails
  refine ⟨before.length, below, why, ⟨⟨w, ?_, hmalformed⟩, ?_⟩, rfl⟩
  · rw [documentAt?, hv]
    exact hw
  · intro earlier hearlier u hu
    rcases earlier with _ | ⟨j, earlier⟩
    · cases hu
    obtain ⟨root, hroot, hu⟩ := Option.bind_eq_some_iff.mp hu
    rcases List.cons_lt_cons_iff.mp hearlier with hlt | ⟨rfl, hlt⟩
    · -- An earlier document was read.
      have hj := hat j
      rw [hroot, Option.map_some, hsplit, List.getElem?_append_left hlt] at hj
      obtain ⟨t, ht⟩ := hbefore _ (List.mem_of_getElem? hj)
      exact hok root (List.mem_of_getElem? hroot) j t ht earlier u hu
    · rw [hv] at hroot
      cases hroot
      exact hfirst earlier hlt u hu

/-! ## Reading nodes -/

section

variable {v : Value} (hmade : WellMade v)
include hmade

theorem AllWellMade.of_children (h : ∀ u ∈ childDocuments v, AllWellMade (documentBelow? u)) :
    AllWellMade (documentBelow? v) := by
  intro path w hw
  rcases path with _ | ⟨i, path⟩
  · cases hw
    exact hmade
  · obtain ⟨u, hu, hw⟩ := Option.bind_eq_some_iff.mp hw
    exact h u (List.mem_of_getElem? hu) path w hw

/-- In a well-made document the first fault is the first one below it. -/
theorem FirstMalformed.of_children {i : Nat} {below : List Nat}
    (h : FirstMalformed (documentAt? (childDocuments v)) (i :: below)) :
    FirstMalformed (documentBelow? v) (i :: below) := by
  refine ⟨h.malformed, ?_⟩
  intro earlier hearlier u hu
  rcases earlier with _ | ⟨j, earlier⟩
  · cases hu
    exact hmade
  · exact h.first (j :: earlier) hearlier u hu

end

/-- A node whose document has no knots is read when all documents are well made, and else it is
refused at the first that is not. -/
theorem readNode_outcome (file : String) (turns : Nat) (path : NodePath) (v : Value)
    (hfree : v.hasKnot = false) (hshort : v.isShort = true) :
    (∀ t, readNode file turns path v = .ok t → AllWellMade (documentBelow? v)) ∧
      ∀ fault, readNode file turns path v = .error fault → ∃ below why,
        FirstMalformed (documentBelow? v) below ∧
          fault = .node { path with below := path.below ++ below } why := by
  induction v, hfree using knotFree_induction generalizing path with
  | step v hfree ih =>
    by_cases hmade : WellMade v
    · obtain ⟨e, hread⟩ := WellMade.exists_readNode hfree hshort hmade file
      have ih := fun u hu i => ih u hu (of_mem_childDocuments hfree hu).1 (path.child i)
        (isShort_of_mem_childDocuments hshort hu)
      rw [hread, readChildren_eq]
      constructor
      · intro t ht
        obtain ⟨ts, hts, -⟩ := bind_eq_ok_iff.mp ht
        apply AllWellMade.of_children hmade
        intro u hu
        obtain ⟨i, hi⟩ := List.mem_iff_getElem?.mp hu
        obtain ⟨t', ht'⟩ := exists_mapM_iff.mp ⟨ts, hts⟩ _ (List.mk_mem_zipIdx_iff_getElem?.mpr hi)
        exact (ih u hu i).1 t' ht'
      · intro fault hfault
        rcases bind_eq_error_iff.mp hfault with hfault | ⟨ts, -, hfault⟩
        swap
        · cases hfault
        have hrefused : ∀ u ∈ childDocuments v, ∀ i fault,
            readNode file turns (path.child i) u = .error fault → ∃ below why,
              FirstMalformed (documentBelow? u) below ∧
                fault = .node { path with below := path.below ++ i :: below } why := by
          intro u hu i fault hfault
          obtain ⟨below, why, hfirst, rfl⟩ := (ih u hu i).2 fault hfault
          refine ⟨below, why, hfirst, ?_⟩
          simp [NodePath.child]
        obtain ⟨i, below, why, hfirst, rfl⟩ := firstMalformed_of_mapM
          (fun i below => { path with below := path.below ++ i :: below })
          (fun u hu i => (ih u hu i).1) hrefused hfault
        exact ⟨i :: below, why, hfirst.of_children hmade, rfl⟩
    · obtain ⟨why, hread⟩ := exists_readNode_of_not_wellMade hfree hshort hmade file turns path
      rw [hread]
      constructor
      · intro t ht
        cases ht
      · rintro fault ⟨⟩
        refine ⟨[], why, ⟨⟨v, rfl, hmade⟩, ?_⟩, by rw [List.append_nil]⟩
        intro earlier hearlier
        exact absurd hearlier (List.not_lt_nil _)

theorem readRoots_outcome (file origin : String) {documents : List Value}
    (hfree : Value.anyHasKnot documents = false) (hshort : Value.allShort documents = true) :
    (∀ drafts, readRoots file origin 0 documents = .ok drafts →
      AllWellMade (documentAt? documents)) ∧
    ∀ fault, readRoots file origin 0 documents = .error fault → ∃ i below why,
      FirstMalformed (documentAt? documents) (i :: below) ∧
        fault = .node ⟨origin, i, below⟩ why := by
  have hnode := fun v hv i =>
    readNode_outcome file maxTurns ⟨origin, i, []⟩ v (Value.knotFree_of_mem hfree v hv)
      (Value.allShort_iff.mp hshort v hv)
  rw [readRoots_eq]
  constructor
  · intro drafts hdrafts path w hw
    rcases path with _ | ⟨i, below⟩
    · cases hw
    obtain ⟨v, hv, hw⟩ := Option.bind_eq_some_iff.mp hw
    obtain ⟨t, ht⟩ := exists_mapM_iff.mp ⟨drafts, hdrafts⟩ _
      (List.mk_mem_zipIdx_iff_getElem?.mpr hv)
    exact (hnode v (List.mem_of_getElem? hv) i).1 t ht below w hw
  · intro fault hfault
    exact firstMalformed_of_mapM (fun i below => ⟨origin, i, below⟩)
      (fun v hv i => (hnode v hv i).1) (fun v hv i => (hnode v hv i).2) hfault

end Document

/-- A node's fault is told with where the document comes from and how to get to the node. -/
theorem LoadFault.node_eq (origin : String) (i : Nat) (below : List Nat) (fault : NodeFault) :
    ∃ refusal : Malformed, node ⟨origin, i, below⟩ fault = .malformed refusal ∧
      refusal.defect = .node ⟨origin, i, below⟩ fault ∧
      refusal.message = origin ++ ": nodes[" ++ toString i ++ "]" ++
        String.join (below.map fun j => ".children[" ++ toString j ++ "]") ++ ": " ++
        fault.message := by
  obtain ⟨refusal, hrefusal, hdefect⟩ := exists_node ⟨origin, i, below⟩ fault
  refine ⟨refusal, hrefusal, hdefect, ?_⟩
  have hworded := refusal.worded
  rw [hdefect] at hworded
  exact (Except.ok.inj hworded).symm

open Document in
/-- A document with a node that is not well made is refused, if no part of the nodes holds itself
and no integer in them is too long to be written, and what is said is the way to the first such node
in pre-order. -/
theorem refused_at_the_first_malformed_node (origin : String) (v : Value) (file : String)
    (documents : List Value) (hleads : LeadsTo v file documents)
    (hfree : Value.anyHasKnot documents = false) (hshort : Value.allShort documents = true)
    (hmalformed : ∃ path w, documentAt? documents path = some w ∧ ¬ WellMade w) :
    ∃ i below fault, FirstMalformed (documentAt? documents) (i :: below) ∧
      ∃ refusal : Malformed, Model.ofDocument origin v = .error (.malformed refusal) ∧
        refusal.defect = .node ⟨origin, i, below⟩ fault ∧
        refusal.message = origin ++ ": nodes[" ++ toString i ++ "]" ++
          String.join (below.map fun j => ".children[" ++ toString j ++ "]") ++ ": " ++
          fault.message := by
  obtain ⟨hread, hrefused⟩ := readRoots_outcome file origin hfree hshort
  rcases ok_or_error (readRoots file origin 0 documents) with ⟨drafts, hdrafts⟩ | ⟨fault, hfault⟩
  · obtain ⟨path, w, hw, hnot⟩ := hmalformed
    exact absurd (hread drafts hdrafts path w hw) hnot
  · obtain ⟨i, below, why, hfirst, rfl⟩ := hrefused fault hfault
    obtain ⟨refusal, hnode, hdefect, hmessage⟩ := LoadFault.node_eq origin i below why
    refine ⟨i, below, why, hfirst, refusal, ?_, hdefect, hmessage⟩
    rw [hleads.ofDocument_of_refused hfault, hnode]

/-- A node document with the given children. -/
def plainNode (children : List Value) : Value :=
  .map [(.str "kind", .str "component"), (.str "span", .list [.int 1, .int 1, .int 9, .int 1]),
    (.str "children", .list children)]

theorem readNode_plainNode (file : String) (turns : Nat) (path : NodePath) (children : List Value) :
    Document.readNode file turns path (plainNode children) =
      Document.readChildren file turns path 0 children >>= fun ts =>
        .ok (.node ⟨"component", none, ⟨file, 1, 1, 9, 1⟩, [], []⟩ ts) := by
  have hattributes : Document.attributeEntries ((plainNode children).field "attributes") = .ok [] :=
    rfl
  have hchildren : (plainNode children).field "children" = .list children := rfl
  refine Document.readNode_map rfl rfl rfl rfl hattributes rfl ?_ ?_ turns path
  · intro label body hknot
    rw [← plainNode, hchildren] at hknot
    cases hknot
  · exact fun _ => ⟨children, rfl⟩

/-- Documents with faults at several places: the second top-level one, the second child of the
first, and what is below the first child. -/
def faultyNodes : List Value := [plainNode [plainNode [.int 5], .null], .str "x"]

theorem allShort_faultyNodes : Value.allShort faultyNodes = true := by
  have hshort : ∀ n ∈ [(1 : Int), 5, 9], Number.isShort n = true :=
    fun n hn => Number.isShort_of_natAbs_lt (by revert n; decide)
  simp [faultyNodes, plainNode, Value.allShort, Value.isShort, Value.entriesShort, hshort]

theorem faultyNodes_are_refused_below_the_first_child :
    Document.LeadsTo (documentOf faultyNodes) "A.swift" faultyNodes ∧
    Value.anyHasKnot faultyNodes = false ∧ Value.allShort faultyNodes = true ∧
    Document.FirstMalformed (Document.documentAt? faultyNodes) [0, 0, 0] ∧
    ∃ refusal : Malformed,
      Model.ofDocument "m.yml" (documentOf faultyNodes) = .error (.malformed refusal) ∧
      refusal.message = "m.yml: nodes[0].children[0].children[0]: node must be a mapping" := by
  have hread : Model.ofDocument "m.yml" (documentOf faultyNodes) =
      .error (.node ⟨"m.yml", 0, [0, 0]⟩ .notMapping) := by
    refine (leadsTo_documentOf faultyNodes).ofDocument_of_refused ?_
    rw [faultyNodes, Document.readRoots, readNode_plainNode, Document.readChildren,
      readNode_plainNode, Document.readChildren, Document.readNode]
    · rfl
    all_goals simp
  have hnot : ¬ Document.WellMade (.str "x") := by
    rintro ⟨⟨entries, hmap⟩, -⟩
    cases hmap
  obtain ⟨i, below, fault, hfirst, refusal, hrefused, hdefect, hmessage⟩ :=
    refused_at_the_first_malformed_node "m.yml" (documentOf faultyNodes) "A.swift" faultyNodes
      (leadsTo_documentOf _) rfl allShort_faultyNodes ⟨[1], .str "x", rfl, hnot⟩
  obtain ⟨refusal', hnode, hdefect'⟩ :=
    LoadFault.exists_node ⟨"m.yml", 0, [0, 0]⟩ .notMapping
  rw [hread, hnode] at hrefused
  cases hrefused
  cases hdefect.symm.trans hdefect'
  exact ⟨leadsTo_documentOf _, rfl, allShort_faultyNodes, hfirst, refusal, by rw [hread, hnode],
    hmessage⟩

/-- Attributes that hold themselves, on a node before one that is no mapping. -/
def hiddenFault : List Value :=
  [.map [(.str "kind", .str "component"), (.str "span", .list [.int 1, .int 1, .int 9, .int 1]),
    (.str "attributes", .knot 0 (.map [(.str "x", .again 0 .map)]))], .int 5]

open Document in
-- The attributes are frozen before the next node is looked at, and that has no end.
theorem endless_attributes_hide_later_faults :
    ¬ ∀ (origin : String) (v : Value) (file : String) (documents : List Value),
      LeadsTo v file documents →
      (∃ path w, documentAt? documents path = some w ∧ ¬ WellMade w) →
      ∃ i below fault, FirstMalformed (documentAt? documents) (i :: below) ∧
        ∃ refusal : Malformed, Model.ofDocument origin v = .error (.malformed refusal) ∧
          refusal.defect = .node ⟨origin, i, below⟩ fault := by
  intro h
  have hnot : ¬ WellMade (.int 5) := by
    rintro ⟨⟨entries, hmap⟩, -⟩
    cases hmap
  have hread : Model.ofDocument "m.yml" (documentOf hiddenFault) = .error .bottomless := by
    refine (leadsTo_documentOf hiddenFault).ofDocument_of_refused ?_
    rw [hiddenFault, Document.readRoots, Document.readNode]
    rfl
  obtain ⟨i, below, fault, -, refusal, hrefused, -⟩ := h "m.yml" (documentOf hiddenFault)
    "A.swift" hiddenFault (leadsTo_documentOf _) ⟨[1], .int 5, rfl, hnot⟩
  cases hread.symm.trans hrefused

end ComponentLint

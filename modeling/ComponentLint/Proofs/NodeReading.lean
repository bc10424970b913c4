-- Reading the documents of nodes, where no part of a document holds itself. One
-- field after the other is read, and the children last, from documents that are
-- smaller: so what holds of all nodes can be shown from the children up.
import ComponentLint.Proofs.FirstFailure
import ComponentLint.Proofs.SourceEdits

namespace ComponentLint

/-! ## Values without knots -/

namespace Value

variable {v w : Value}

theorem ne_knot_of_knotFree (h : v.hasKnot = false) (label : Nat) (body : Value) :
    v ≠ knot label body := by
  rintro rfl
  cases h

theorem unfold_of_ne_knot (h : ∀ label body, v ≠ knot label body) : v.unfold = v := by
  cases v with
  | knot label body => exact absurd rfl (h label body)
  | _ => rfl

theorem unfold_of_knotFree (h : v.hasKnot = false) : v.unfold = v :=
  unfold_of_ne_knot (ne_knot_of_knotFree h)

theorem knotFree_of_entry? {key : String} {entries : List (Value × Value)}
    (h : entryHasKnot entries = false) (hw : entry? key entries = some w) :
    w.hasKnot = false := by
  induction entries with
  | nil => cases hw
  | cons e rest ih =>
    obtain ⟨k, v⟩ := e
    rw [entryHasKnot, Bool.or_eq_false_iff] at h
    rw [entry?_cons] at hw
    split at hw
    · cases hw
      exact h.1
    · exact ih h.2 hw

theorem knotFree_of_field? {key : String} (h : v.hasKnot = false) (hw : v.field? key = some w) :
    w.hasKnot = false := by
  unfold field? at hw
  rw [unfold_of_knotFree h] at hw
  cases v with
  | map entries => exact knotFree_of_entry? h hw
  | _ => cases hw

theorem knotFree_field (key : String) (h : v.hasKnot = false) : (v.field key).hasKnot = false := by
  unfold field
  cases hw : v.field? key with
  | none => rfl
  | some w => exact knotFree_of_field? h hw

theorem knotFree_of_mem {items : List Value} (h : anyHasKnot items = false) :
    ∀ v ∈ items, v.hasKnot = false := by
  induction items with
  | nil => simp
  | cons v rest ih =>
    rw [anyHasKnot, Bool.or_eq_false_iff] at h
    exact List.forall_mem_cons.mpr ⟨h.1, ih h.2⟩

theorem field?_map (key : String) (entries : List (Value × Value)) :
    (map entries).field? key = entry? key entries := rfl

end Value

namespace Document

/-! ## The documents of the children -/

/-- The documents of a node's children. -/
def childDocuments (v : Value) : List Value :=
  match (v.field "children").unfold with
  | .list items => items
  | _ => []

theorem isShort_of_mem_childDocuments {v u : Value} (hshort : v.isShort = true)
    (h : u ∈ childDocuments v) : u.isShort = true := by
  have hchildren := Value.isShort_unfold (Value.isShort_field "children" hshort)
  unfold childDocuments at h
  split at h
  · rename_i items hitems
    rw [hitems] at hchildren
    exact Value.allShort_iff.mp hchildren u h
  · cases h

theorem of_mem_childDocuments {v u : Value} (hfree : v.hasKnot = false)
    (h : u ∈ childDocuments v) : u.hasKnot = false ∧ sizeOf u < sizeOf v := by
  have hchildren := Value.knotFree_field "children" hfree
  unfold childDocuments at h
  rw [Value.unfold_of_knotFree hchildren] at h
  split at h
  · rename_i items hitems
    rw [hitems] at hchildren
    refine ⟨Value.knotFree_of_mem hchildren u h, ?_⟩
    cases v with
    | map entries =>
      have hentry : Value.entry? "children" entries = some (.list items) := by
        rw [Value.field, Value.field?_map] at hitems
        cases hentry : Value.entry? "children" entries with
        | none => simp [hentry] at hitems
        | some w => simpa [hentry] using hitems
      have hsize := sizeOf_entry?_lt hentry
      have hmem := List.sizeOf_lt_of_mem h
      simp only [Value.list.sizeOf_spec] at hsize
      simp only [Value.map.sizeOf_spec]
      omega
    | knot label body => cases hfree
    | _ => cases hitems
  · cases h

/-- Induction on documents without knots: what holds of the documents of all children holds of the
document. -/
@[elab_as_elim]
theorem knotFree_induction {motive : ∀ v : Value, v.hasKnot = false → Prop}
    (step : ∀ v hfree, (∀ u ∈ childDocuments v, ∀ hfree, motive u hfree) → motive v hfree)
    (v : Value) (hfree : v.hasKnot = false) : motive v hfree := by
  induction hn : sizeOf v using Nat.strongRecOn generalizing v with
  | _ n ih =>
    refine step v hfree fun u hu hfreeChild => ?_
    exact ih (sizeOf u) (hn ▸ (of_mem_childDocuments hfree hu).2) u hfreeChild rfl

/-- The documents of the children, where they are a list or count as nothing. -/
def listedChildren (v : Value) : Except NodeFault (List Value) :=
  match (v.field "children").unfold with
  | .list items => .ok items
  | _ => if (v.field "children").truthy then .error .children else .ok []

section

variable {v : Value}

theorem listedChildren_of_list (h : (v.field "children").truthy = true →
    ∃ items, (v.field "children").unfold = .list items) :
    listedChildren v = .ok (childDocuments v) := by
  unfold listedChildren childDocuments
  split
  · rfl
  · rename_i hlist
    have hfalsy : ¬ (v.field "children").truthy = true := by
      intro htruthy
      obtain ⟨items, hitems⟩ := h htruthy
      exact hlist items hitems
    rw [if_neg hfalsy]

theorem listedChildren_of_not_list (h : ¬ ((v.field "children").truthy = true →
    ∃ items, (v.field "children").unfold = .list items)) :
    listedChildren v = .error .children := by
  obtain ⟨htruthy, hlist⟩ := Classical.not_imp.mp h
  unfold listedChildren
  split
  · rename_i items hitems
    exact absurd ⟨items, hitems⟩ hlist
  · rw [if_pos htruthy]

end

/-! ## One node -/

section

variable {entries : List (Value × Value)} (file : String) (turns : Nat) (path : NodePath)

/-- A node is read from its fields and then from the documents of its children. -/
theorem readNode_of_kind {kind : String} (hkind : Value.entry? "kind" entries = some (.str kind))
    (hopen : ∀ label body, (Value.map entries).field "children" ≠ .knot label body) :
    readNode file turns path (.map entries) =
      ((readSpan file ((Value.map entries).field "span")).mapError (LoadFault.atNode path) >>=
        fun span => (readName ((Value.map entries).field "name")).mapError .ofLong >>=
        fun name => (readAnnotations ((Value.map entries).field "annotations")).mapError
          (LoadFault.atNode path) >>=
        fun annotations => (attributeEntries ((Value.map entries).field "attributes")).mapError
          (LoadFault.node path) >>=
        fun attributes => (listedChildren (.map entries)).mapError (LoadFault.node path) >>=
        fun items => readChildren file turns path 0 items >>=
        fun children => readAttributes attributes >>=
        fun facts => .ok (.node ⟨kind, name, span, annotations, facts⟩ children)) := by
  rw [readNode]
  simp only [hkind]
  refine bind_congr fun span => bind_congr fun name => bind_congr fun annotations =>
    bind_congr fun attributes => ?_
  have hnil : readChildren file turns path 0 [] = .ok [] := by rw [readChildren]
  unfold listedChildren
  rw [Value.unfold_of_ne_knot hopen]
  rw [Value.field, Value.field?_map] at hopen ⊢
  split
  · rename_i hnone
    rw [hnone]
    exact (congrArg (· >>= _) hnil).symm
  · rename_i items hitems
    rw [hitems]
    rfl
  · rename_i label body hknot
    rw [hknot] at hopen
    exact absurd rfl (hopen label body)
  · rename_i w hlist hknot hw
    rw [hw, Option.getD_some]
    cases w with
    | list items => exact absurd rfl (hlist items)
    | _ =>
      split
      · rfl
      · exact (congrArg (· >>= _) hnil).symm

theorem readNode_of_no_kind (h : ∀ kind, Value.entry? "kind" entries ≠ some (.str kind)) :
    readNode file turns path (.map entries) = .error (.node path .noKind) := by
  rw [readNode]
  split
  · rename_i kind hkind
    exact absurd hkind (h kind)
  · rfl

theorem readNode_of_not_map {v : Value} (hfree : v.hasKnot = false)
    (h : ∀ entries, v ≠ .map entries) :
    readNode file turns path v = .error (.node path .notMapping) := by
  cases v with
  | map entries => exact absurd rfl (h entries)
  | knot label body => cases hfree
  | _ =>
    simp only [readNode]
    rfl

end

/-! ## Nodes one after the other -/

theorem readChildren_eq (file : String) (turns : Nat) (path : NodePath) (first : Nat)
    (items : List Value) :
    readChildren file turns path first items =
      (items.zipIdx first).mapM fun e => readNode file turns (path.child e.2) e.1 := by
  induction items generalizing first with
  | nil =>
    rw [readChildren]
    rfl
  | cons v rest ih => rw [readChildren, ih, List.zipIdx_cons, List.mapM_cons]

theorem readRoots_eq (file origin : String) (first : Nat) (documents : List Value) :
    readRoots file origin first documents =
      (documents.zipIdx first).mapM fun e => readNode file maxTurns ⟨origin, e.2, []⟩ e.1 := by
  induction documents generalizing first with
  | nil => rfl
  | cons v rest ih => rw [readRoots, ih, List.zipIdx_cons, List.mapM_cons]

end Document

end ComponentLint

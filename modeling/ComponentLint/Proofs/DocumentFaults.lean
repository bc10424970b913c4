-- What can go wrong with a document. Every part of it is checked before it is
-- used, and a fault is reported with the place it is at. There are two
-- exceptions: the column of a declared suppression is turned into an integer as
-- it stands, and an integer where a text is meant may be too long to be written.
import ComponentLint.Proofs.NodeReading

namespace ComponentLint

open ComponentLint.Number

/-! ## Integers that have to be written -/

namespace Value

variable {v : Value} {long : Prop}

theorem settles_toText (h : long ∨ v.isShort = true) :
    Settles (fun _ => long) (fun _ => True) v.toText := by
  rcases h with hlong | hshort
  · cases v.toText with
    | ok text => trivial
    | error e => exact hlong
  · obtain ⟨text, htext⟩ := exists_toText_of_isShort hshort
    rw [htext]
    trivial

/-- What freezing a value without knots may stop at. -/
def LongOnly (long : Prop) (stop : Stop Endless) : Prop := stop = .longInteger ∧ long

mutual

theorem settles_freeze : ∀ v : Value, v.hasKnot = false → long ∨ v.isShort = true →
    Settles (LongOnly long) (fun _ => True) v.freeze
  | list items, hfree, h => by
    rw [freeze]
    exact (settles_freezeAll items hfree h).bind fun _ _ => trivial
  | map entries, hfree, h => by
    rw [freeze]
    exact (settles_freezeEntries entries hfree h []).bind fun _ _ => trivial
  | knot _ _, hfree, _ => by simp [hasKnot] at hfree
  | again _ _, hfree, _ => by simp [hasKnot] at hfree
  | null, _, _ => trivial
  | bool _, _, _ => trivial
  | int _, _, _ => trivial
  | float _, _, _ => trivial
  | str _, _, _ => trivial
  | date _, _, _ => trivial
  | moment _, _, _ => trivial
  | bytes _, _, _ => trivial
  | tuple _, _, _ => trivial
  | set _, _, _ => trivial

theorem settles_freezeAll : ∀ items : List Value, anyHasKnot items = false →
    long ∨ allShort items = true → Settles (LongOnly long) (fun _ => True) (freezeAll items)
  | [], _, _ => trivial
  | v :: rest, hfree, h => by
    rw [anyHasKnot, Bool.or_eq_false_iff] at hfree
    rw [allShort, Bool.and_eq_true, or_and_left] at h
    rw [freezeAll]
    exact (settles_freeze v hfree.1 h.1).bind fun _ _ =>
      (settles_freezeAll rest hfree.2 h.2).bind fun _ _ => trivial

theorem settles_freezeEntries : ∀ entries : List (Value × Value), entryHasKnot entries = false →
    long ∨ entriesShort entries = true → ∀ done,
      Settles (LongOnly long) (fun _ => True) (freezeEntries entries done)
  | [], _, _, _ => trivial
  | (k, v) :: rest, hfree, h, done => by
    rw [entryHasKnot, Bool.or_eq_false_iff] at hfree
    rw [entriesShort, Bool.and_eq_true, Bool.and_eq_true, or_and_left, or_and_left] at h
    rw [freezeEntries]
    exact ((settles_toText h.1.1).mapError fun _ hlong => ⟨rfl, hlong⟩).bind fun _ _ =>
      (settles_freeze v hfree.1 h.1.2).bind fun _ _ => settles_freezeEntries rest hfree.2 h.2 _

end

end Value

/-! ## Refusals that say where a document is malformed -/

namespace LoadFault

/-- A refusal that says what is malformed, or one for an integer that is too long. -/
def Expected (long : Prop) (fault : LoadFault) : Prop :=
  (∃ cause, fault = .malformed cause) ∨ fault = .longInteger ∧ long

variable {long : Prop}

theorem exists_node (path : NodePath) (fault : NodeFault) :
    ∃ cause, node path fault = .malformed cause ∧ cause.defect = .node path fault := by
  obtain ⟨cause, hcause⟩ :=
    Defect.exists_raised_iff.mpr ⟨_, (rfl : (Defect.node path fault).wording = .ok _)⟩
  exact ⟨cause, by rw [node, hcause, ofStop], Defect.raised_eq_refused_iff.mp hcause⟩

theorem exists_document (origin : String) (fault : DocumentFault) :
    ∃ cause, document origin fault = .malformed cause := by
  obtain ⟨cause, hcause⟩ :=
    Defect.exists_raised_iff.mpr ⟨_, (rfl : (Defect.document origin fault).wording = .ok _)⟩
  exact ⟨cause, by rw [document, hcause, ofStop]⟩

theorem expected_node (path : NodePath) (fault : NodeFault) : Expected long (node path fault) := by
  obtain ⟨cause, hcause, -⟩ := exists_node path fault
  exact Or.inl ⟨cause, hcause⟩

theorem expected_document (origin : String) (fault : DocumentFault) :
    Expected long (document origin fault) :=
  Or.inl (exists_document origin fault)

theorem expected_atNode (path : NodePath) (stop : Stop NodeFault)
    (h : stop = .longInteger → long) : Expected long (atNode path stop) := by
  cases stop with
  | refused fault => exact expected_node path fault
  | longInteger => exact Or.inr ⟨rfl, h rfl⟩

theorem expected_ofLong (e : LongInteger) (h : long) : Expected long (ofLong e) := Or.inr ⟨rfl, h⟩

theorem expected_ofFreezing {stop : Stop Value.Endless} (h : Value.LongOnly long stop) :
    Expected long (ofFreezing stop) := by
  rw [h.1]
  exact Or.inr ⟨rfl, h.2⟩

end LoadFault

/-! ## Trees that start at short places -/

namespace Draft

mutual

/-- Whether every node of a submitted tree starts at a place that can be written. -/
def startsShort : Draft → Bool
  | .node e ts => e.span.isShort && startShort ts

def startShort : List Draft → Bool
  | [] => true
  | t :: ts => startsShort t && startShort ts

end

theorem isShort_of_mem {ts : List Draft} (h : startShort ts = true) :
    ∀ t ∈ ts, t.value.span.isShort = true := by
  induction ts with
  | nil => simp
  | cons t ts ih =>
    obtain ⟨e, below⟩ := t
    rw [startShort, startsShort, Bool.and_eq_true, Bool.and_eq_true] at h
    exact List.forall_mem_cons.mpr ⟨h.1.1, ih h.2⟩

theorem startShort_of_forall {long : Prop} {ts : List Draft}
    (h : ∀ t ∈ ts, long ∨ t.startsShort = true) : long ∨ startShort ts = true := by
  induction ts with
  | nil => exact Or.inr rfl
  | cons t ts ih =>
    obtain ⟨ht, hts⟩ := List.forall_mem_cons.mp h
    rw [startShort, Bool.and_eq_true, or_and_left]
    exact ⟨ht, ih hts⟩

theorem isShort_of_mem_headings {ts : List Draft} (h : startShort ts = true) {n : Heading}
    (hn : n ∈ ts.map fun t => t.value.heading) : n.span.isShort = true := by
  obtain ⟨t, ht, rfl⟩ := List.mem_map.mp hn
  exact isShort_of_mem h t ht

/-- There are words for what is wrong with trees that start at short places. -/
theorem isShort_of_checkAll {file : String} {ts : List Draft} (hts : startShort ts = true)
    {d : Defect} (h : checkAll file ts = .error d) : ∀ n ∈ d.named, n.span.isShort = true := by
  induction ts using Tree.forest_induction with
  | nil => cases h
  | cons e ts us ihBelow ihBeside =>
    rw [startShort, startsShort, Bool.and_eq_true, Bool.and_eq_true] at hts
    rcases checkAll_cons_eq_error_iff.mp h with hnode | ⟨e', -, hbelow | ⟨below, -, hbeside⟩⟩
    · intro n hn
      rcases Entry.named_of_check hnode n hn with rfl | hchild
      · exact hts.1.1
      · exact isShort_of_mem_headings hts.1.2 hchild
    · exact ihBelow hts.1.2 hbelow
    · exact ihBeside hts.2 hbeside

theorem isShort_of_checkRoots {file : String} {roots : List Draft}
    (hroots : startShort roots = true) {d : Defect} (h : checkRoots file roots = .error d) :
    ∀ n ∈ d.named, n.span.isShort = true := by
  rcases bind_eq_error_iff.mp h with hsiblings | ⟨⟨⟩, -, hall⟩
  · intro n hn
    rcases named_of_checkSiblings hsiblings n hn with hroot | hnone
    · exact isShort_of_mem_headings hroots hroot
    · cases hnone
  · exact isShort_of_checkAll hroots hall

end Draft

theorem Model.settles_ofDrafts {long : Prop} (file : String) {roots : List Draft}
    (hroots : long ∨ Draft.startShort roots = true) (lines : List String)
    (suppressions : List Suppression) :
    Settles (LoadFault.Expected long) (fun _ => True)
      ((ofDrafts file roots lines suppressions).mapError LoadFault.ofStop) := by
  cases hmodel : ofDrafts file roots lines suppressions with
  | ok m => trivial
  | error stop =>
    obtain ⟨d, hd, rfl⟩ := ofDrafts_eq_error_iff.mp hmodel
    change LoadFault.Expected long (LoadFault.ofStop d.raised)
    rcases hroots with hlong | hshort
    · cases d.raised with
      | refused cause => exact Or.inl ⟨cause, rfl⟩
      | longInteger => exact Or.inr ⟨rfl, hlong⟩
    · obtain ⟨cause, hcause⟩ := Defect.exists_raised_iff.mpr
        (d.exists_wording_iff.mpr (Draft.isShort_of_checkRoots hshort hd))
      rw [hcause]
      exact Or.inl ⟨cause, rfl⟩

namespace Document

/-! ## Nodes -/

section

variable {long : Prop} (file : String)

theorem positive?_eq_some_iff {v : Value} {n : Int} :
    positive? v = some n ↔ v = .int n ∧ 1 ≤ n := by
  cases v with
  | int k =>
    by_cases hk : 1 ≤ k
    · rw [positive?, if_pos hk]
      constructor
      · rintro ⟨⟩
        exact ⟨rfl, hk⟩
      · rintro ⟨⟨⟩, -⟩
        rfl
    · rw [positive?, if_neg hk]
      simp only [reduceCtorEq, Value.int.injEq, false_iff, not_and]
      rintro rfl
      exact hk
  | _ => simp [positive?]

theorem settles_spanOf {values : List Value} (h : long ∨ Value.allShort values = true) :
    Settles (fun stop => stop = .longInteger → long) (fun s => long ∨ s.isShort = true)
      (spanOf file values) := by
  unfold spanOf
  split
  · rename_i startLine startCol endLine endCol hvalues
    refine h.imp_right fun hshort => ?_
    simp only [List.map_eq_cons_iff, List.map_eq_nil_iff] at hvalues
    obtain ⟨a, others, rfl, ha, b, rest, rfl, hb, hrest⟩ := hvalues
    have hline := Value.allShort_iff.mp hshort a (by simp)
    have hcol := Value.allShort_iff.mp hshort b (by simp)
    rw [(positive?_eq_some_iff.mp ha).1] at hline
    rw [(positive?_eq_some_iff.mp hb).1] at hcol
    exact Bool.and_eq_true_iff.mpr ⟨hline, hcol⟩
  · rw [Value.written_eq]
    rcases h with hlong | hshort
    · cases (Value.list values).writable with
      | true => exact fun _ => hlong
      | false => exact fun _ => hlong
    · have hwritable : (Value.list values).writable = true := Value.writable_of_isShort hshort
      rw [hwritable]
      intro hstop
      cases hstop

theorem settles_requiredFields {v : Value} (h : long ∨ v.isShort = true) (names : List String) :
    Settles (fun stop => stop = .longInteger → long)
      (fun values => long ∨ Value.allShort values = true) (requiredFields v names) := by
  induction names with
  | nil => exact Or.inr rfl
  | cons name names ih =>
    rw [requiredFields]
    split
    · rename_i first hfirst
      refine ih.bind fun rest hrest => ?_
      rcases h with hlong | hshort
      · exact Or.inl hlong
      · exact hrest.imp_right fun hrest =>
          Bool.and_eq_true_iff.mpr ⟨Value.isShort_of_field? hshort hfirst, hrest⟩
    · intro hstop
      cases hstop

theorem settles_readSpan {v : Value} (h : long ∨ v.isShort = true) :
    Settles (fun stop => stop = .longInteger → long) (fun s => long ∨ s.isShort = true)
      (readSpan file v) := by
  have hunfold := h.imp_right Value.isShort_unfold
  unfold readSpan
  split
  · rename_i values hvalues
    rw [hvalues] at hunfold
    exact settles_spanOf file hunfold
  · exact (settles_requiredFields h _).bind fun values hvalues => settles_spanOf file hvalues
  · intro hstop
    cases hstop

theorem settles_readName {v : Value} (h : long ∨ v.isShort = true) :
    Settles (fun _ => long) (fun _ => True) (readName v) := by
  unfold readName
  split
  · trivial
  · exact (Value.settles_toText h).bind fun _ _ => trivial

theorem settles_readArguments {v : Value} (h : long ∨ v.isShort = true) :
    Settles (fun _ => long) (fun _ => True) (readArguments v) := by
  have hunfold := h.imp_right Value.isShort_unfold
  unfold readArguments
  split
  · trivial
  · rename_i args hargs
    rw [hargs] at hunfold
    refine (Settles.mapM fun a ha => Value.settles_toText ?_).imp fun _ _ => trivial
    exact hunfold.imp_right fun hshort => Value.allShort_iff.mp hshort a ha
  · exact (Value.settles_toText h).bind fun _ _ => trivial

theorem settles_readAnnotationEntry {name args : Value} (hname : long ∨ name.isShort = true)
    (hargs : long ∨ args.isShort = true) :
    Settles (fun _ => long) (fun _ => True) (readAnnotationEntry name args) :=
  (Value.settles_toText hname).bind fun _ _ =>
    (settles_readArguments hargs).bind fun _ _ => trivial

theorem settles_bareAnnotations {names : List Value} (h : long ∨ Value.allShort names = true) :
    Settles (fun _ => long) (fun _ => True) (names.mapM fun n => readAnnotationEntry n .null) := by
  refine (Settles.mapM fun n hn =>
    settles_readAnnotationEntry ?_ (Or.inr rfl)).imp fun _ _ => trivial
  exact h.imp_right fun hshort => Value.allShort_iff.mp hshort n hn

theorem settles_annotationEntries {entries : List (Value × Value)}
    (h : long ∨ Value.entriesShort entries = true) :
    Settles (fun _ => long) (fun _ => True)
      (entries.mapM fun e => readAnnotationEntry e.1 e.2) := by
  refine (Settles.mapM fun e he => settles_readAnnotationEntry ?_ ?_).imp fun _ _ => trivial
  · exact h.imp_right fun hshort => (Value.entriesShort_iff.mp hshort e he).1
  · exact h.imp_right fun hshort => (Value.entriesShort_iff.mp hshort e he).2

theorem settles_readAnnotations {v : Value} (h : long ∨ v.isShort = true) :
    Settles (fun stop => stop = .longInteger → long) (fun _ => True) (readAnnotations v) := by
  have hunfold := h.imp_right Value.isShort_unfold
  unfold readAnnotations
  split
  · split
    · rename_i names hnames
      rw [hnames] at hunfold
      exact ((settles_bareAnnotations hunfold).mapError fun _ hlong _ => hlong).bind
        fun _ _ => trivial
    · rename_i entries hentries
      rw [hentries] at hunfold
      exact ((settles_annotationEntries hunfold).mapError fun _ hlong _ => hlong).bind
        fun _ _ => trivial
    · intro hstop
      cases hstop
  · trivial

theorem settles_attributeEntries {v : Value} (hfree : v.hasKnot = false)
    (h : long ∨ v.isShort = true) :
    Settles (fun _ => True) (fun entries => Value.entryHasKnot entries = false ∧
      (long ∨ Value.entriesShort entries = true)) (attributeEntries v) := by
  unfold attributeEntries
  rw [Value.unfold_of_knotFree hfree]
  split
  · cases v with
    | map entries => exact ⟨hfree, h⟩
    | _ => trivial
  · exact ⟨rfl, Or.inr rfl⟩

theorem settles_listedChildren (v : Value) :
    Settles (fun _ => True) (fun items => items = childDocuments v) (listedChildren v) := by
  by_cases h : (v.field "children").truthy = true →
      ∃ items, (v.field "children").unfold = .list items
  · rw [listedChildren_of_list h]
    rfl
  · rw [listedChildren_of_not_list h]
    trivial

theorem settles_readNode (turns : Nat) (path : NodePath) (v : Value) (hfree : v.hasKnot = false)
    (h : long ∨ v.isShort = true) :
    Settles (LoadFault.Expected long) (fun t => long ∨ t.startsShort = true)
      (readNode file turns path v) := by
  induction v, hfree using knotFree_induction generalizing path with
  | step v hfree ih =>
    by_cases hmap : ∃ entries, v = .map entries
    swap
    · rw [readNode_of_not_map file turns path hfree (not_exists.mp hmap)]
      exact LoadFault.expected_node path .notMapping
    obtain ⟨entries, rfl⟩ := hmap
    by_cases hkind : ∃ kind, Value.entry? "kind" entries = some (.str kind)
    swap
    · rw [readNode_of_no_kind file turns path (not_exists.mp hkind)]
      exact LoadFault.expected_node path .noKind
    obtain ⟨kind, hkind⟩ := hkind
    have hfield : ∀ key, long ∨ ((Value.map entries).field key).isShort = true :=
      fun key => h.imp_right (Value.isShort_field key)
    rw [readNode_of_kind file turns path hkind
      (Value.ne_knot_of_knotFree (Value.knotFree_field _ hfree))]
    refine ((settles_readSpan file (hfield _)).mapError
      (LoadFault.expected_atNode path)).bind fun span hspan => ?_
    refine ((settles_readName (hfield _)).mapError
      LoadFault.expected_ofLong).bind fun name _ => ?_
    refine ((settles_readAnnotations (hfield _)).mapError
      (LoadFault.expected_atNode path)).bind fun annotations _ => ?_
    refine ((settles_attributeEntries (Value.knotFree_field _ hfree) (hfield _)).mapError
      fun fault _ => LoadFault.expected_node path fault).bind fun attributes hattributes => ?_
    refine ((settles_listedChildren _).mapError
      fun fault _ => LoadFault.expected_node path fault).bind fun items hitems => ?_
    subst hitems
    have hbelow : Settles (LoadFault.Expected long)
        (fun ts => ∀ t ∈ ts, long ∨ t.startsShort = true)
        (readChildren file turns path 0 (childDocuments (.map entries))) := by
      rw [readChildren_eq]
      refine Settles.mapM fun e he => ?_
      have hchild := List.fst_mem_of_mem_zipIdx he
      exact ih e.1 hchild (of_mem_childDocuments hfree hchild).1 _
        (h.imp_right fun hshort => isShort_of_mem_childDocuments hshort hchild)
    refine hbelow.bind fun children hchildren => ?_
    -- Without knots the attributes can be frozen.
    refine ((Value.settles_freezeEntries _ hattributes.1 hattributes.2 []).mapError
      fun _ => LoadFault.expected_ofFreezing).bind fun facts _ => ?_
    change long ∨ (span.isShort && Draft.startShort children) = true
    rw [Bool.and_eq_true, or_and_left]
    exact ⟨hspan, Draft.startShort_of_forall hchildren⟩

theorem settles_readRoots (origin : String) (first : Nat) (items : List Value)
    (hfree : Value.anyHasKnot items = false) (h : long ∨ Value.allShort items = true) :
    Settles (LoadFault.Expected long) (fun ts => long ∨ Draft.startShort ts = true)
      (readRoots file origin first items) := by
  rw [readRoots_eq]
  refine (Settles.mapM fun e he => ?_).imp fun _ => Draft.startShort_of_forall
  have hroot := List.fst_mem_of_mem_zipIdx he
  exact settles_readNode file maxTurns _ e.1 (Value.knotFree_of_mem hfree e.1 hroot)
    (h.imp_right fun hshort => Value.allShort_iff.mp hshort e.1 hroot)

end

/-! ## Declared suppressions -/

/-- Whether a declared suppression says which rule it silences, and on which line. -/
def hasTarget (e : Value) : Bool :=
  ((e.field? "rule").bind Value.text?).isSome && (readLine? (e.field "line")).isSome

/-- The column that a declared suppression gives; the first one if it gives none. -/
def columnOf (e : Value) : Value := (e.field? "column").getD (.int 1)

/-- The first declared suppression that cannot be read has a target, and its column is refused. -/
def FirstRefusedColumn (items : List Value) (fault : ColumnFault) : Prop :=
  ∃ before e after, items = before ++ e :: after ∧
    (∀ b ∈ before, hasTarget b ∧ ∃ column, readColumn (columnOf b) = .ok column) ∧
    hasTarget e ∧ readColumn (columnOf e) = .error fault

variable (file origin : String) {e : Value}

theorem readSuppression_of_target (h : hasTarget e) (index : Nat) :
    ∃ rule line, readSuppression file origin index e =
      (readColumn (columnOf e)).mapError LoadFault.column >>= fun column =>
        .ok ⟨file, rule, line, line, .int column⟩ := by
  unfold hasTarget Value.field? at h
  rw [Bool.and_eq_true, Option.isSome_iff_exists, Option.isSome_iff_exists] at h
  obtain ⟨⟨rule, hrule⟩, line, hline⟩ := h
  obtain ⟨v, hv, hrule⟩ := Option.bind_eq_some_iff.mp hrule
  cases he : e.unfold with
  | map entries =>
    rw [he] at hv
    cases v with
    | str s =>
      refine ⟨s, line, ?_⟩
      unfold readSuppression
      simp only [he]
      simp only at hv
      rw [hv, hline]
      rfl
    | _ => cases hrule
  | _ =>
    rw [he] at hv
    cases hv

theorem readSuppression_of_no_target (h : hasTarget e = false) (index : Nat) :
    ∃ cause, readSuppression file origin index e = .error (.malformed cause) := by
  unfold readSuppression
  split
  · rename_i entries he
    split
    · rename_i rule hrule
      split
      · rename_i line hline
        have hfield : e.field? "rule" = some (.str rule) := by simp [Value.field?, he, hrule]
        simp [hasTarget, hfield, hline, Value.text?] at h
      · exact ⟨_, rfl⟩
    · exact ⟨_, rfl⟩
  · exact ⟨_, rfl⟩

/-- A declared suppression without a target is malformed; the rest is up to its column. -/
theorem readSuppression_cases (index : Nat) (e : Value) :
    (hasTarget e = false ∧
      ∃ cause, readSuppression file origin index e = .error (.malformed cause)) ∨
    (hasTarget e = true ∧ ∃ fault, readColumn (columnOf e) = .error fault ∧
      readSuppression file origin index e = .error (.column fault)) ∨
    (hasTarget e = true ∧ ∃ column, readColumn (columnOf e) = .ok column ∧
      ∃ s, readSuppression file origin index e = .ok s) := by
  cases h : hasTarget e with
  | false => exact Or.inl ⟨rfl, readSuppression_of_no_target file origin h index⟩
  | true =>
    obtain ⟨rule, line, hread⟩ := readSuppression_of_target file origin h index
    rw [hread]
    cases hcolumn : readColumn (columnOf e) with
    | error fault => exact Or.inr (Or.inl ⟨rfl, fault, rfl, rfl⟩)
    | ok column => exact Or.inr (Or.inr ⟨rfl, column, rfl, _, rfl⟩)

theorem exists_readSuppression_iff (index : Nat) :
    (∃ s, readSuppression file origin index e = .ok s) ↔
      hasTarget e ∧ ∃ column, readColumn (columnOf e) = .ok column := by
  rcases readSuppression_cases file origin index e with
    ⟨htarget, cause, h⟩ | ⟨htarget, fault, hcolumn, h⟩ | ⟨htarget, column, hcolumn, s, h⟩
  · simp [htarget, h]
  · simp [htarget, hcolumn, h]
  · simp [htarget, hcolumn, h]

theorem readSuppression_eq_error_iff {fault : ColumnFault} (index : Nat) :
    readSuppression file origin index e = .error (.column fault) ↔
      hasTarget e ∧ readColumn (columnOf e) = .error fault := by
  rcases readSuppression_cases file origin index e with
    ⟨htarget, cause, h⟩ | ⟨htarget, fault, hcolumn, h⟩ | ⟨htarget, column, hcolumn, s, h⟩
  · simp [htarget, h]
  · simp [htarget, hcolumn, h]
  · simp [htarget, hcolumn, h]

theorem readSuppressionsFrom_eq (first : Nat) (items : List Value) :
    readSuppressionsFrom file origin first items =
      (items.zipIdx first).mapM fun e => readSuppression file origin e.2 e.1 := by
  induction items generalizing first with
  | nil => rfl
  | cons v rest ih =>
    rw [readSuppressionsFrom, ih, List.zipIdx_cons, List.mapM_cons]

theorem readSuppressionsFrom_eq_error_iff {fault : ColumnFault} (first : Nat)
    (items : List Value) :
    readSuppressionsFrom file origin first items = .error (.column fault) ↔
      FirstRefusedColumn items fault := by
  rw [readSuppressionsFrom_eq, mapM_eq_error_iff]
  constructor
  · rintro ⟨before, ⟨e, index⟩, after, hsplit, hbefore, hfails⟩
    refine ⟨before.map Prod.fst, e, after.map Prod.fst, ?_, ?_, ?_⟩
    · have := congrArg (List.map Prod.fst) hsplit
      simpa using this
    · intro b hb
      obtain ⟨⟨b, place⟩, hmem, rfl⟩ := List.mem_map.mp hb
      exact (exists_readSuppression_iff file origin place).mp (hbefore _ hmem)
    · exact (readSuppression_eq_error_iff file origin index).mp hfails
  · rintro ⟨before, e, after, rfl, hbefore, hfails⟩
    refine ⟨before.zipIdx first, (e, first + before.length),
      after.zipIdx (first + before.length + 1), ?_, ?_, ?_⟩
    · rw [List.zipIdx_append, List.zipIdx_cons]
    · rintro ⟨b, place⟩ hb
      exact (exists_readSuppression_iff file origin place).mpr
        (hbefore b (List.fst_mem_of_mem_zipIdx hb))
    · exact (readSuppression_eq_error_iff file origin _).mpr hfails

theorem readSuppressions_eq_error_iff {v : Value} (hv : v.hasKnot = false) {fault : ColumnFault} :
    readSuppressions file origin v = .error (.column fault) ↔
      ∃ items, v = .list items ∧ FirstRefusedColumn items fault := by
  obtain ⟨cause, hcause⟩ := LoadFault.exists_document origin .suppressionsForm
  unfold readSuppressions
  rw [Value.unfold_of_knotFree hv]
  cases v with
  | list items => simp [readSuppressionsFrom_eq_error_iff]
  | null => simp
  | _ => simp [throw, throwThe, MonadExceptOf.throw, hcause]

/-- Declared suppressions are refused as malformed or at a column. -/
theorem of_readSuppressions_eq_error {v : Value} {fault : LoadFault}
    (h : readSuppressions file origin v = .error fault) :
    (∃ cause, fault = .malformed cause) ∨ ∃ why, fault = .column why := by
  unfold readSuppressions at h
  split at h
  · cases h
  · rw [readSuppressionsFrom_eq] at h
    obtain ⟨before, ⟨e, index⟩, after, -, -, hfails⟩ := mapM_eq_error_iff.mp h
    rcases readSuppression_cases file origin index e with
      ⟨-, cause, h⟩ | ⟨-, why, -, h⟩ | ⟨-, column, -, s, h⟩
    · cases h.symm.trans hfails
      exact Or.inl ⟨cause, rfl⟩
    · cases h.symm.trans hfails
      exact Or.inr ⟨why, rfl⟩
    · cases h.symm.trans hfails
  · cases h
    exact Or.inl (LoadFault.exists_document origin .suppressionsForm)

/-! ## The document as a whole -/

theorem settles_readLines (long : Prop) (v : Value) :
    Settles (LoadFault.Expected long) (fun _ => True) (readLines origin v) := by
  unfold readLines
  split
  · trivial
  · trivial
  · exact LoadFault.expected_document origin .sourceForm

theorem settles_rootDocuments {long : Prop} {v : Value} (hfree : v.hasKnot = false)
    (h : long ∨ v.isShort = true) :
    Settles (LoadFault.Expected long) (fun documents => Value.anyHasKnot documents = false ∧
      (long ∨ Value.allShort documents = true)) (rootDocuments origin v) := by
  unfold rootDocuments
  cases hfield : v.field? "nodes" with
  | none => exact ⟨rfl, Or.inr rfl⟩
  | some nodes =>
    have hnodes := Value.knotFree_of_field? hfree hfield
    have hshort := h.imp_right fun hshort => Value.isShort_of_field? hshort hfield
    rw [Option.map_some, Value.unfold_of_knotFree hnodes]
    cases nodes with
    | list items => exact ⟨hnodes, hshort⟩
    | _ => exact LoadFault.expected_document origin .nodesForm

/-- A document that can be read up to its declared suppressions, of which the first one that cannot
be read has a target and a column that is refused. -/
def ColumnRefused (v : Value) (fault : ColumnFault) : Prop :=
  ∃ file lines documents drafts items, readFile? v = some file ∧ readLines origin v = .ok lines ∧
    rootDocuments origin v = .ok documents ∧ readRoots file origin 0 documents = .ok drafts ∧
    v.field "suppressions" = .list items ∧ FirstRefusedColumn items fault

theorem ofDocument_of_columnRefused {v : Value} (hv : v.hasKnot = false) {fault : ColumnFault}
    (h : ColumnRefused origin v fault) : Model.ofDocument origin v = .error (.column fault) := by
  obtain ⟨file, lines, documents, drafts, items, hfile, hlines, hdocuments, hdrafts, hitems, h⟩ := h
  have hdeclared : readSuppressions file origin (v.field "suppressions") = .error (.column fault) :=
    (readSuppressions_eq_error_iff file origin (Value.knotFree_field _ hv)).mpr ⟨items, hitems, h⟩
  unfold Model.ofDocument
  rw [Value.unfold_of_knotFree hv]
  cases v with
  | map entries =>
    simp only [hfile, bind_eq_error_iff]
    refine Or.inr ⟨lines, hlines, Or.inr ⟨documents, hdocuments, Or.inr ⟨drafts, hdrafts, ?_⟩⟩⟩
    exact Or.inl hdeclared
  | knot label body => simp [Value.hasKnot] at hv
  | _ => simp [readFile?, Value.field, Value.field?, Value.unfold, Value.text?] at hfile

/-- A refusal is an expected one, or that of a column. -/
theorem of_ofDocument_eq_error {v : Value} (hv : v.hasKnot = false) {fault : LoadFault}
    (h : Model.ofDocument origin v = .error fault) :
    fault.Expected (v.isShort = false) ∨
      ∃ why, fault = .column why ∧ ColumnRefused origin v why := by
  have hshort : v.isShort = false ∨ v.isShort = true := (Bool.eq_false_or_eq_true _).symm
  unfold Model.ofDocument at h
  split at h
  · cases hfile : readFile? v with
    | none =>
      rw [hfile] at h
      cases h
      exact Or.inl (LoadFault.expected_document origin .noFile)
    | some file =>
      rw [hfile] at h
      -- All steps but the reading of the declared suppressions refuse as expected.
      rcases bind_eq_error_iff.mp h with h | ⟨lines, hlines, h⟩
      · exact Or.inl ((settles_readLines origin _ v).of_eq_error h)
      rcases bind_eq_error_iff.mp h with h | ⟨documents, hdocuments, h⟩
      · exact Or.inl ((settles_rootDocuments origin hv hshort).of_eq_error h)
      obtain ⟨hfree, hroots⟩ := (settles_rootDocuments origin hv hshort).of_eq_ok hdocuments
      have hread := settles_readRoots file origin 0 documents hfree hroots
      rcases bind_eq_error_iff.mp h with h | ⟨drafts, hdrafts, h⟩
      · exact Or.inl (hread.of_eq_error h)
      rcases bind_eq_error_iff.mp h with h | ⟨declared, -, h⟩
      · rcases of_readSuppressions_eq_error file origin h with hcause | ⟨why, rfl⟩
        · exact Or.inl (Or.inl hcause)
        · obtain ⟨items, hitems, hrefused⟩ :=
            (readSuppressions_eq_error_iff file origin (Value.knotFree_field _ hv)).mp h
          exact Or.inr ⟨why, rfl, file, lines, documents, drafts, items, hfile, hlines, hdocuments,
            hdrafts, hitems, hrefused⟩
      · exact Or.inl ((Model.settles_ofDrafts file (hread.of_eq_ok hdrafts) _ _).of_eq_error h)
  · cases h
    exact Or.inl (LoadFault.expected_document origin .notMapping)

end Document

/-- A document gives a unit, or is refused with what is malformed in it, with two exceptions. If it
can be read up to the column of a declared suppression that is no integer, then the refusal of that
column is all there is. And a document that holds an integer with too many digits may end where that
integer has to be written. -/
theorem documents_give_units_or_say_what_is_malformed (origin : String) (v : Value)
    (hv : v.hasKnot = false) :
    (v.isShort = true →
      (((∃ m, Model.ofDocument origin v = .ok m) ∨
          ∃ cause, Model.ofDocument origin v = .error (.malformed cause)) ↔
        ∀ fault, ¬ Document.ColumnRefused origin v fault)) ∧
    (∀ fault, Model.ofDocument origin v = .error (.column fault) ↔
      Document.ColumnRefused origin v fault) ∧
    ((∃ m, Model.ofDocument origin v = .ok m) ∨
      (∃ cause, Model.ofDocument origin v = .error (.malformed cause)) ∨
      (∃ fault, Model.ofDocument origin v = .error (.column fault)) ∨
      Model.ofDocument origin v = .error .longInteger ∧ v.isShort = false) := by
  have hcolumn : ∀ fault, Model.ofDocument origin v = .error (.column fault) ↔
      Document.ColumnRefused origin v fault := by
    intro fault
    refine ⟨fun h => ?_, Document.ofDocument_of_columnRefused origin hv⟩
    rcases Document.of_ofDocument_eq_error origin hv h with
      (⟨cause, hcause⟩ | ⟨hlong, -⟩) | ⟨why, hwhy, hrefused⟩
    · cases hcause
    · cases hlong
    · cases hwhy
      exact hrefused
  have hcases : (∃ m, Model.ofDocument origin v = .ok m) ∨
      (∃ cause, Model.ofDocument origin v = .error (.malformed cause)) ∨
      (∃ fault, Model.ofDocument origin v = .error (.column fault)) ∨
      Model.ofDocument origin v = .error .longInteger ∧ v.isShort = false := by
    rcases ok_or_error (Model.ofDocument origin v) with hm | ⟨fault, hfault⟩
    · exact Or.inl hm
    · rw [hfault]
      rcases Document.of_ofDocument_eq_error origin hv hfault with
        (⟨cause, rfl⟩ | ⟨rfl, hlong⟩) | ⟨why, rfl, -⟩
      · exact Or.inr (Or.inl ⟨cause, rfl⟩)
      · exact Or.inr (Or.inr (Or.inr ⟨rfl, hlong⟩))
      · exact Or.inr (Or.inr (Or.inl ⟨why, rfl⟩))
  refine ⟨fun hshort => ?_, hcolumn, hcases⟩
  simp only [← hcolumn]
  rcases hcases with ⟨m, hm⟩ | ⟨cause, hcause⟩ | ⟨fault, hfault⟩ | ⟨-, hlong⟩
  · simp [hm]
  · simp [hcause]
  · simp [hfault]
  · rw [hshort] at hlong
    cases hlong

/-- A document with a declared suppression whose column is a word. -/
def wordAsColumn : Value :=
  .map [(.str "file", .str "A.swift"), (.str "suppressions", .list
    [.map [(.str "rule", .str "x"), (.str "line", .int 1), (.str "column", .str "x")]])]

theorem wordAsColumn_is_refused_as_a_column :
    wordAsColumn.hasKnot = false ∧
    Model.ofDocument "<model>" wordAsColumn = .error (.column (.literal "'x'" .malformed)) := by
  have hfree : wordAsColumn.hasKnot = false := rfl
  refine ⟨hfree, ?_⟩
  rw [(documents_give_units_or_say_what_is_malformed "<model>" wordAsColumn hfree).2.1]
  exact ⟨"A.swift", [], [], [], _, rfl, rfl, rfl, rfl, rfl, [], _, [], rfl, by simp, rfl, rfl⟩

/-- A document with a node whose name is an integer with too many digits. -/
def integerAsName : Value :=
  .map [(.str "file", .str "A.swift"), (.str "nodes", .list
    [.map [(.str "kind", .str "component"), (.str "name", .int longInteger),
      (.str "span", .list [.int 1, .int 1, .int 1, .int 1])]])]

theorem ofDocument_integerAsName :
    Model.ofDocument "<model>" integerAsName = .error .longInteger := by
  have htext : (Value.int longInteger).toText = .error ⟨⟩ := by
    rw [Value.toText_eq, Value.writable, Value.writableIn, isShort_longInteger]
    rfl
  have hname : (Document.readName (.int longInteger)).mapError LoadFault.ofLong =
      .error .longInteger := by
    change ((Value.int longInteger).toText.map some).mapError LoadFault.ofLong = _
    rw [htext]
    rfl
  refine bind_eq_error_iff.mpr (Or.inr ⟨[], rfl, bind_eq_error_iff.mpr (Or.inr ⟨_, rfl, ?_⟩)⟩)
  refine bind_eq_error_iff.mpr (Or.inl ?_)
  rw [Document.readRoots, Document.readNode]
  refine bind_eq_error_iff.mpr (Or.inl (bind_eq_error_iff.mpr (Or.inr ⟨_, rfl, ?_⟩)))
  exact bind_eq_error_iff.mpr (Or.inl hname)

-- The column is not checked before it is turned into an integer, and the length of an integer not
-- before it is written.
theorem columns_and_names_escape_the_checks :
    (¬ ∀ (origin : String) (v : Value), v.hasKnot = false → v.isShort = true →
      (∃ m, Model.ofDocument origin v = .ok m) ∨
        ∃ cause, Model.ofDocument origin v = .error (.malformed cause)) ∧
    ¬ ∀ (origin : String) (v : Value), v.hasKnot = false → v.field "suppressions" = .null →
      (∃ m, Model.ofDocument origin v = .ok m) ∨
        ∃ cause, Model.ofDocument origin v = .error (.malformed cause) := by
  constructor
  · intro h
    have hrefused : Model.ofDocument "<model>" wordAsColumn =
        .error (.column (.literal "'x'" .malformed)) := rfl
    have hshort : wordAsColumn.isShort = true := by
      have hline : Number.isShort 1 = true := isShort_of_natAbs_lt (by decide)
      simp [wordAsColumn, Value.isShort, Value.entriesShort, Value.allShort, hline]
    rcases h "<model>" wordAsColumn rfl hshort with ⟨m, hm⟩ | ⟨cause, hcause⟩
    · cases hrefused.symm.trans hm
    · cases hrefused.symm.trans hcause
  · intro h
    rcases h "<model>" integerAsName rfl rfl with ⟨m, hm⟩ | ⟨cause, hcause⟩
    · cases ofDocument_integerAsName.symm.trans hm
    · cases ofDocument_integerAsName.symm.trans hcause

end ComponentLint

-- Where checks fail. Of the standard checks only the one about captures reads
-- collections that a front end wrote, so where all integers can be written it
-- is the only one that can fail: at a closure in a component that is referred
-- to, whose captures are no set or whose capture modes are no mapping.
import ComponentLint.Proofs.CaptureFindings
import ComponentLint.Proofs.LineCounts
import ComponentLint.Proofs.NodeDocuments
import ComponentLint.Proofs.RenderingLimits
import ComponentLint.Proofs.Traversals

namespace ComponentLint

open ComponentLint.Number

/-! ## Values that can be collections of others -/

namespace Value

/-- A value without a hash: a list, a mapping or a set, or a tuple with such a part. -/
inductive Unhashable : Value → Prop
  | list (items : List Value) : Unhashable (.list items)
  | map (entries : List (Value × Value)) : Unhashable (.map entries)
  | set (members : List Value) : Unhashable (.set members)
  | tuple {items : List Value} {part : Value} (mem : part ∈ items) (inside : Unhashable part) :
      Unhashable (.tuple items)
  | knot {label : Nat} {body : Value} (inside : Unhashable body) : Unhashable (.knot label body)
  | again {label : Nat} {form : Collection} (other : form ≠ .tuple) :
      Unhashable (.again label form)

/-- A value that can be gone through and whose items can be members of a set. -/
def SetLike (v : Value) : Prop := ∃ items, v.items? = some items ∧ ∀ item ∈ items, ¬ item.Unhashable

/-- A value that can be gone through and has two items, of which the first can be a key. -/
def PairLike (v : Value) : Prop := ∃ key value, v.items? = some [key, value] ∧ ¬ key.Unhashable

/-- A mapping, or a value whose items are all like pairs. -/
def MappingLike (v : Value) : Prop :=
  (∃ entries, v.unfold = .map entries) ∨
    ∃ items, v.items? = some items ∧ ∀ item ∈ items, item.PairLike

theorem unhashableIn?_eq_none_iff {items : List Value} :
    unhashableIn? items = none ↔ ∀ item ∈ items, item.unhashable? = none := by
  induction items with
  | nil => simp [unhashableIn?]
  | cons v rest ih => rw [unhashableIn?, Option.or_eq_none_iff, ih, List.forall_mem_cons]

theorem Unhashable.unhashable?_ne_none {v : Value} (h : v.Unhashable) : v.unhashable? ≠ none := by
  induction h with
  | list items => simp [unhashable?]
  | map entries => simp [unhashable?]
  | set members => simp [unhashable?]
  | @tuple items part mem inside ih =>
    rw [unhashable?]
    intro hnone
    exact ih (unhashableIn?_eq_none_iff.mp hnone part mem)
  | knot inside ih => rwa [unhashable?]
  | again other => simp [unhashable?, other]

mutual

theorem unhashable_of_ne_none : ∀ v : Value, v.unhashable? ≠ none → v.Unhashable
  | .list items, _ => .list items
  | .map entries, _ => .map entries
  | .set members, _ => .set members
  | .tuple items, h => by
    obtain ⟨part, mem, inside⟩ := exists_unhashable_of_ne_none items h
    exact .tuple mem inside
  | .knot _ body, h => .knot (unhashable_of_ne_none body h)
  | .again _ form, h => .again fun htuple => h (by rw [unhashable?, if_pos htuple])
  | .null, h => absurd rfl h
  | .bool _, h => absurd rfl h
  | .int _, h => absurd rfl h
  | .float _, h => absurd rfl h
  | .str _, h => absurd rfl h
  | .date _, h => absurd rfl h
  | .moment _, h => absurd rfl h
  | .bytes _, h => absurd rfl h

theorem exists_unhashable_of_ne_none : ∀ items : List Value,
    unhashableIn? items ≠ none → ∃ part ∈ items, part.Unhashable
  | [], h => absurd rfl h
  | v :: rest, h => by
    by_cases hv : v.unhashable? = none
    · rw [unhashableIn?, hv, Option.none_or] at h
      obtain ⟨part, mem, inside⟩ := exists_unhashable_of_ne_none rest h
      exact ⟨part, List.mem_cons_of_mem v mem, inside⟩
    · exact ⟨v, List.mem_cons_self, unhashable_of_ne_none v hv⟩

end

theorem unhashable?_eq_none_iff {v : Value} : v.unhashable? = none ↔ ¬ v.Unhashable := by
  rw [← not_iff_not, not_not]
  exact ⟨unhashable_of_ne_none v, Unhashable.unhashable?_ne_none⟩

end Value

/-! ## Reading the captures -/

namespace Check

theorem exists_readSet_iff {v : Value} :
    (∃ members, readSet v = .ok members) ↔ (v.truthy = true → v.SetLike) := by
  unfold readSet Value.SetLike
  by_cases htruthy : v.truthy = true
  · rw [if_pos htruthy]
    cases hitems : v.items? with
    | none => simp [htruthy]
    | some items =>
      have hmembers : Value.unhashableIn? items = none ↔ ∀ item ∈ items, ¬ item.Unhashable := by
        simp only [Value.unhashableIn?_eq_none_iff, Value.unhashable?_eq_none_iff]
      cases hpart : Value.unhashableIn? items with
      | none => simpa [htruthy, hpart] using hmembers
      | some part => simpa [htruthy, hpart] using hmembers
  · simp [htruthy]

theorem exists_readPair_iff (index : Nat) {v : Value} :
    (∃ pair, readPair index v = .ok pair) ↔ v.PairLike := by
  unfold readPair Value.PairLike
  split
  · rename_i hnone
    simp [hnone]
  · rename_i key value hpair
    cases hpart : key.unhashable? with
    | none => simpa [hpair] using Value.unhashable?_eq_none_iff.mp hpart
    | some part =>
      have hkey : key.Unhashable := Value.unhashable_of_ne_none key (by simp [hpart])
      simp [hpair, hkey]
  · rename_i items hother hitems
    simp only [reduceCtorEq, exists_false, hitems, Option.some.injEq, false_iff]
    rintro ⟨key, value, rfl, -⟩
    exact hother key value rfl

/-- Pairs are stored one after the other, as long as all of them are pairs. -/
theorem exists_readPairs_iff {items : List Value} {first : Nat} {done : List (Value × Value)} :
    (∃ entries, readPairs first done items = .ok entries) ↔ ∀ item ∈ items, item.PairLike := by
  induction items generalizing first done with
  | nil => simp [readPairs]
  | cons v rest ih =>
    rw [List.forall_mem_cons, ← exists_readPair_iff first]
    simp only [readPairs, bind_eq_ok_iff]
    constructor
    · rintro ⟨entries, pair, hpair, hrest⟩
      exact ⟨⟨pair, hpair⟩, ih.mp ⟨entries, hrest⟩⟩
    · rintro ⟨⟨pair, hpair⟩, hrest⟩
      obtain ⟨entries, hentries⟩ := ih.mpr hrest
      exact ⟨entries, pair, hpair, hentries⟩

theorem exists_readMapping_iff {v : Value} :
    (∃ entries, readMapping v = .ok entries) ↔ (v.truthy = true → v.MappingLike) := by
  unfold readMapping Value.MappingLike
  by_cases htruthy : v.truthy = true
  · rw [if_pos htruthy]
    split
    · rename_i entries hmap
      simp [hmap]
    · rename_i hmap
      have hmap : ¬ ∃ entries, v.unfold = .map entries := fun ⟨entries, h⟩ => hmap entries h
      cases hitems : v.items? with
      | none => simp [htruthy, hmap]
      | some items => simp [htruthy, hmap, exists_readPairs_iff]
  · simp [htruthy]

/-- The captures of a closure can be read: what counts as its captures is like a set, and what
counts as its capture modes like a mapping. -/
structure ReadableCaptures (n : Node) : Prop where
  captures : (n.attr "captures").truthy = true → (n.attr "captures").SetLike
  modes : (n.attr "capture_list").truthy = true → (n.attr "capture_list").MappingLike

theorem readableCaptures_iff {n : Node} :
    ReadableCaptures n ↔ (∃ members, readSet (n.attr "captures") = .ok members) ∧
      ∃ entries, readMapping (n.attr "capture_list") = .ok entries := by
  rw [exists_readSet_iff, exists_readMapping_iff]
  exact ⟨fun h => ⟨h.captures, h.modes⟩, fun h => ⟨h.1, h.2⟩⟩

instance (n : Node) : Decidable (ReadableCaptures n) :=
  match hset : readSet (n.attr "captures"), hmodes : readMapping (n.attr "capture_list") with
  | .ok members, .ok entries => isTrue (readableCaptures_iff.mpr ⟨⟨members, hset⟩, entries, hmodes⟩)
  | .error failure, _ => isFalse fun h => by
    obtain ⟨⟨members, hmembers⟩, -⟩ := readableCaptures_iff.mp h
    cases hset.symm.trans hmembers
  | .ok _, .error failure => isFalse fun h => by
    obtain ⟨-, entries, hentries⟩ := readableCaptures_iff.mp h
    cases hmodes.symm.trans hentries

/-! ## Modes that can be written -/

theorem allShort_of_items? {v : Value} (hv : v.isShort = true) {items : List Value}
    (h : v.items? = some items) : Value.allShort items = true := by
  have hunfold := Value.isShort_unfold hv
  rw [Value.allShort_iff]
  unfold Value.items? at h
  split at h <;> cases h <;> rename_i hform <;> rw [hform] at hunfold
  · simp [Value.isShort]
  · intro item hitem
    obtain ⟨b, -, rfl⟩ := List.mem_map.mp hitem
    exact isShort_of_natAbs_lt (Nat.lt_trans b.toNat_lt (by decide))
  · exact Value.allShort_iff.mp hunfold
  · exact Value.allShort_iff.mp hunfold
  · intro item hitem
    obtain ⟨e, he, rfl⟩ := List.mem_map.mp hitem
    exact (Value.entriesShort_iff.mp hunfold e he).1
  · exact Value.allShort_iff.mp hunfold

theorem entriesShort_put {key value : Value} (hkey : key.isShort = true)
    (hvalue : value.isShort = true) {entries : List (Value × Value)}
    (h : Value.entriesShort entries = true) :
    Value.entriesShort (Value.put key value entries) = true := by
  induction entries with
  | nil => simp [Value.put, Value.entriesShort, hkey, hvalue]
  | cons e rest ih =>
    obtain ⟨k, v⟩ := e
    rw [Value.entriesShort, Bool.and_eq_true, Bool.and_eq_true] at h
    rw [Value.put]
    split
    · simp [Value.entriesShort, h.1.1, hvalue, h.2]
    · simp [Value.entriesShort, h.1.1, h.1.2, ih h.2]

theorem entriesShort_of_readPairs {items : List Value} (hitems : Value.allShort items = true)
    {first : Nat} {done modes : List (Value × Value)} (hdone : Value.entriesShort done = true)
    (h : readPairs first done items = .ok modes) : Value.entriesShort modes = true := by
  induction items generalizing first done with
  | nil =>
    cases h
    exact hdone
  | cons v rest ih =>
    rw [Value.allShort, Bool.and_eq_true] at hitems
    obtain ⟨⟨key, value⟩, hpair, hrest⟩ := bind_eq_ok_iff.mp h
    unfold readPair at hpair
    split at hpair
    · cases hpair
    · rename_i key' value' hparts
      have hshort := Value.allShort_iff.mp (allShort_of_items? hitems.1 hparts)
      split at hpair
      · cases hpair
      · cases hpair
        exact ih hitems.2 (entriesShort_put (hshort _ (by simp)) (hshort _ (by simp)) hdone) hrest
    · cases hpair

theorem entriesShort_of_readMapping {v : Value} (hv : v.isShort = true)
    {modes : List (Value × Value)} (h : readMapping v = .ok modes) :
    Value.entriesShort modes = true := by
  have hunfold := Value.isShort_unfold hv
  unfold readMapping at h
  split at h
  · split at h
    · rename_i entries hentries
      cases h
      rw [hentries] at hunfold
      exact hunfold
    · split at h
      · cases h
      · rename_i items hitems
        exact entriesShort_of_readPairs (allShort_of_items? hv hitems) rfl h
  · cases h
    rfl

/-- Where the modes hold no long integer, the check about captures fails exactly in a component that
is referred to, at captures that cannot be read. -/
theorem isSome_failure_captureDiscipline_iff (ctx : Context)
    (hshort : (ctx.node.attr "capture_list").isShort = true) :
    (captureDiscipline ctx).failure.isSome = true ↔
      (∃ component, ctx.component? = some component ∧
        (component.attr "reference_type").truthy = true) ∧ ¬ ReadableCaptures ctx.node := by
  constructor
  · intro hfails
    obtain ⟨failure, hfailure⟩ := Option.isSome_iff_exists.mp hfails
    constructor
    · cases hcomponent : ctx.component?.filter fun c => (c.attr "reference_type").truthy with
      | none =>
        simp only [captureDiscipline, ofAttempt, hcomponent] at hfailure
        cases hfailure
      | some component => exact ⟨component, Option.filter_eq_some_iff.mp hcomponent⟩
    · intro hreadable
      obtain ⟨⟨members, hset⟩, modes, hmodes⟩ := readableCaptures_iff.mp hreadable
      have hnever : FailsOnly (fun _ => False) captureDiscipline ctx := by
        refine failsOnly_captureDiscipline ?_ ?_
        · rw [hset]
          trivial
        · rw [hmodes]
          intro name mode hmode
          exact Or.inr (Value.writable_of_isShort (Value.isShort_of_entry?
            (entriesShort_of_readMapping hshort hmodes) hmode))
      exact hnever failure hfailure
  · rintro ⟨⟨component, hreferred⟩, hunreadable⟩
    have hcomponent : (ctx.component?.filter fun c => (c.attr "reference_type").truthy) =
        some component := Option.filter_eq_some_iff.mpr hreferred
    -- Both collections are read before anything is said, and the first that fails is told of.
    rcases ok_or_error (readSet (ctx.node.attr "captures")) with ⟨members, hset⟩ | ⟨failure, hset⟩
    · rcases ok_or_error (readMapping (ctx.node.attr "capture_list")) with
        ⟨entries, hmap⟩ | ⟨failure, hmap⟩
      · exact absurd (readableCaptures_iff.mpr ⟨⟨members, hset⟩, entries, hmap⟩) hunreadable
      · simp [captureDiscipline, ofAttempt, hcomponent, hset, hmap, bind, Except.bind]
    · simp [captureDiscipline, ofAttempt, hcomponent, hset, bind, Except.bind]

end Check

/-! ## Units whose integers can be written -/

/-- Whether no integer of a node has too many digits: those of its span, and those that stand in its
attributes. -/
def Entry.hasShortIntegers (e : Entry Kind) : Bool :=
  [e.span.startLine, e.span.startCol, e.span.endLine, e.span.endCol].all isShort &&
    e.attributes.all fun fact => fact.2.isShort

theorem Entry.isShort_attr {e : Entry Kind} (h : e.hasShortIntegers = true) (key : String) :
    (e.attr key).isShort = true := by
  rw [hasShortIntegers, Bool.and_eq_true] at h
  unfold attr attr?
  cases hget : e.attributes.get? key with
  | none => rfl
  | some v => exact List.all_eq_true.mp h.2 _ (Entries.mem_of_get? hget)

theorem Entry.isShort_span {e : Entry Kind} (h : e.hasShortIntegers = true) :
    e.span.isShort = true ∧ isShort e.span.endLine = true := by
  rw [hasShortIntegers, Bool.and_eq_true, List.all_eq_true] at h
  rw [Span.isShort, h.1 _ (by simp), h.1 _ (by simp), h.1 _ (by simp)]
  exact ⟨rfl, rfl⟩

/-- A unit of which a check can write whatever it has to: the integers of its nodes, whose lines
count from one as they do in every document, and how deep they are nested. -/
structure Model.HasShortIntegers (m : Model) : Prop where
  nodes : ∀ w ∈ m.walk, w.tree.value.hasShortIntegers = true
  lines : ∀ w ∈ m.walk, 1 ≤ w.tree.span.startLine ∧ w.tree.span.startLine ≤ w.tree.span.endLine
  nesting : ∀ w ∈ m.walk, isShort (Check.nestingLimit.measure m w.tree) = true

/-- A node does not measure more than the number of its last line. -/
theorem Model.HasShortIntegers.size {m : Model} (h : m.HasShortIntegers)
    {w : Tree.Visit (Entry Kind)} (hw : w ∈ m.walk) :
    isShort (Check.sizeLimit.measure m w.tree) = true := by
  obtain ⟨hstart, hend⟩ := h.lines w hw
  have hlast : isShort w.tree.span.endLine = true := (Entry.isShort_span (h.nodes w hw)).2
  obtain ⟨hlow, hhigh⟩ := Source.measure_bounds m.lines hstart (by omega)
  refine isShort_of_le (isShort_of_natAbs_lt (by decide)) hlast hlow (hhigh.trans ?_)
  rw [Span.lineCount]
  omega

theorem Model.HasShortIntegers.ancestors {m : Model} (h : m.HasShortIntegers)
    {w : Tree.Visit (Entry Kind)} (hw : w ∈ m.walk) :
    ∀ n ∈ w.ancestors, n.value.hasShortIntegers = true := by
  intro n hn
  have hnodes := h.nodes
  unfold walk at hw hnodes
  rw [Tree.walk_eq_visitsAmong] at hw hnodes
  obtain ⟨x, hx, rfl, -⟩ := Tree.exists_below_of_mem_ancestors hw hn List.not_mem_nil
  exact hnodes x hx

/-! ## The other checks -/

namespace ActiveRule

variable {r : ActiveRule} {m : Model} {w : Tree.Visit (Entry Kind)}

/-- A limit is said with the measure, if that can be written. -/
theorem failsOnly_limit {l : Check.RenderLimit} {names : List String} {limit : Int}
    (h : r.LimitedTo l names limit) (hshort : isShort (l.measure m w.tree) = true) :
    Check.FailsOnly (fun _ => False) l.check (r.contextAt m w) := by
  refine Check.failsOnly_renderLimit (Or.inr fun component hmore => ?_)
  rw [h.number_contextAt] at hmore
  have hmore : limit < l.measure m w.tree := hmore
  rw [h.remark_eq hmore, hshort]
  exact ⟨_, rfl⟩

variable {config : Configuration} {rs : ActiveRules}
  (hrs : Catalog.standard.resolve config = .ok rs) (hr : r ∈ rs.rules)
include hrs hr

/-- No standard rule but the one about captures has a check that fails in a unit whose integers can
be written. -/
theorem failsOnly_of_other (hid : r.id ≠ "capture-discipline") (hm : m.HasShortIntegers)
    (hw : w ∈ m.walk) {check : Check} (hcheck : r.descriptor.check = some check) :
    Check.FailsOnly (fun _ => False) check (r.contextAt m w) := by
  have hattr : ∀ key, False ∨ (w.tree.attr key).writable = true := fun key =>
    Or.inr (Value.writable_of_isShort (Entry.isShort_attr (hm.nodes w hw) key))
  have hstandard := ((Catalog.of_resolve hrs).2 r hr).1
  have hlimited : ∀ {id l}, LimitedBy id l → r.id = id → ∃ names limit, r.LimitedTo l names limit :=
    fun hl hid => exists_limitedTo
      (hl.limits_of_resolve (by decide) (List.Subset.refl _) hrs hr hid)
      ((Catalog.activated_of_resolve hrs).2 r hr).2
  simp only [Catalog.standard, standardRules, List.mem_cons, List.not_mem_nil,
    or_false] at hstandard
  rcases hstandard with hd | hd | hd | hd | hd | hd | hd | hd | hd <;>
    (have hrid := congrArg Descriptor.id hd; rw [hd] at hcheck; cases hcheck)
  · obtain ⟨names, limit, hlimited⟩ := hlimited .bodySize hrid
    exact failsOnly_limit hlimited (hm.size hw)
  · exact Check.failsOnly_ofRemarks _
  · refine Check.failsOnly_isolation ?_
    rintro n (rfl | hn)
    · exact hattr "isolation"
    · exact Or.inr (Value.writable_of_isShort (Entry.isShort_attr (hm.ancestors hw n hn) _))
  · exact absurd hrid hid
  · exact Check.failsOnly_stableIdentity (hattr "id") (hattr "data")
  · exact Check.failsOnly_ofRemarks _
  · obtain ⟨names, limit, hlimited⟩ := hlimited .nesting hrid
    exact failsOnly_limit hlimited (hm.nesting w hw)
  · exact Check.failsOnly_ofRemarks _

theorem failures_survey_of_other (hid : r.id ≠ "capture-discipline") (hm : m.HasShortIntegers)
    (hw : w ∈ m.walk) : (r.survey m w).failures = [] := by
  refine List.eq_nil_iff_forall_not_mem.mpr fun f hf => ?_
  obtain ⟨check, hcheck, hfailure, -⟩ := of_mem_failures_survey hf
  exact failsOnly_of_other hrs hr hid hm hw hcheck _ hfailure

end ActiveRule

/-! ## The failures of an analysis -/

/-- A closure at which the check about captures fails: its nearest component is referred to, and its
captures are not like a set or its capture modes not like a mapping. -/
structure UnreadableCaptures (w : Tree.Visit (Entry Kind)) : Prop where
  closure : w.tree.kind = .closure
  referred : ∃ outside component between, w.ancestors = outside ++ component :: between ∧
    component.kind = .component ∧ (∀ n ∈ between, n.kind ≠ .component) ∧
    (component.attr "reference_type").truthy = true
  unreadable :
    (w.tree.attr "captures").truthy = true ∧ ¬ (w.tree.attr "captures").SetLike ∨
    (w.tree.attr "capture_list").truthy = true ∧ ¬ (w.tree.attr "capture_list").MappingLike

/-- The unit and the parameters do not matter to whether the captures of a closure can be read. -/
theorem unreadableCaptures_iff {w : Tree.Visit (Entry Kind)} (m : Model) (params : Entries Value) :
    UnreadableCaptures w ↔ w.tree.kind = .closure ∧
      (∃ component ∈ (⟨w.tree, w.ancestors, m, params⟩ : Context).component?,
        (component.attr "reference_type").truthy = true) ∧ ¬ Check.ReadableCaptures w.tree := by
  have hreadable : ¬ Check.ReadableCaptures w.tree ↔
      (w.tree.attr "captures").truthy = true ∧ ¬ (w.tree.attr "captures").SetLike ∨
      (w.tree.attr "capture_list").truthy = true ∧
        ¬ (w.tree.attr "capture_list").MappingLike := by
    rw [← Classical.not_imp, ← Classical.not_imp, ← not_and_or]
    exact not_congr ⟨fun h => ⟨h.captures, h.modes⟩, fun h => ⟨h.1, h.2⟩⟩
  rw [hreadable]
  simp only [Option.mem_def, Context.component?_eq_some_iff]
  constructor
  · rintro ⟨hclosure, ⟨outside, component, between, hsplit, hkind, hbetween, htruthy⟩, h⟩
    exact ⟨hclosure, ⟨component, ⟨outside, between, hsplit, hkind, hbetween⟩, htruthy⟩, h⟩
  · rintro ⟨hclosure, ⟨component, ⟨outside, between, hsplit, hkind, hbetween⟩, htruthy⟩, h⟩
    exact ⟨hclosure, ⟨outside, component, between, hsplit, hkind, hbetween, htruthy⟩, h⟩

instance : DecidablePred UnreadableCaptures := fun _ =>
  decidable_of_iff _ (unreadableCaptures_iff (.ofForest "" [] [] []) []).symm

/-- At a closure the rule about captures leaves one failure if they cannot be read. -/
theorem ActiveRule.failures_survey_capture {r : ActiveRule} (hrule : r.descriptor = captureRule)
    {m : Model} (hm : m.HasShortIntegers) {w : Tree.Visit (Entry Kind)} (hw : w ∈ m.walk)
    (hclosure : w.tree.kind = .closure) :
    (r.survey m w).failures.map (fun f => (f.ruleId, f.place)) =
      if UnreadableCaptures w then [("capture-discipline", Place.ofSpan w.tree.span)] else [] := by
  have hid : r.id = "capture-discipline" := congrArg Descriptor.id hrule
  have hcheck : r.descriptor.check = some Check.captureDiscipline := by
    rw [hrule]
    rfl
  have hfails := Check.isSome_failure_captureDiscipline_iff (r.contextAt m w)
    (Entry.isShort_attr (hm.nodes w hw) "capture_list")
  have hiff : UnreadableCaptures w ↔
      (Check.captureDiscipline (r.contextAt m w)).failure.isSome = true := by
    rw [unreadableCaptures_iff m r.params, hfails, and_iff_right hclosure]
    rfl
  cases hfailure : (Check.captureDiscipline (r.contextAt m w)).failure with
  | none =>
    rw [if_neg (by simp [hiff, hfailure])]
    refine List.map_eq_nil_iff.mpr (List.eq_nil_iff_forall_not_mem.mpr fun f hf => ?_)
    obtain ⟨check, hcheck', hmem, -⟩ := of_mem_failures_survey hf
    cases hcheck.symm.trans hcheck'
    cases hfailure.symm.trans hmem
  | some failure =>
    rw [if_pos (hiff.mpr (by rw [hfailure]; rfl)), failures_survey_of_failure hcheck hfailure]
    simp [hid]

theorem flatMap_ite_eq_map_filter {α β : Type} (p : α → Prop) [DecidablePred p] (f : α → β)
    (items : List α) :
    (items.flatMap fun a => if p a then [f a] else []) = (items.filter fun a => p a).map f := by
  induction items with
  | nil => rfl
  | cons a items ih =>
    rw [List.flatMap_cons, ih, List.filter_cons]
    by_cases ha : p a
    · simp [ha]
    · simp [ha]

namespace Survey

variable {m : Model} {config : Configuration} {rs : ActiveRules}
  (hrs : Catalog.standard.resolve config = .ok rs) (hm : m.HasShortIntegers)
include hrs hm

/-- All failures of the standard rules are about captures. -/
theorem ruleId_of_mem_failures {f : RuleFailure} (h : f ∈ (ofModel m rs).failures) :
    ∃ r ∈ rs.rules, r.id = "capture-discipline" ∧ f.ruleId = r.id := by
  obtain ⟨evaluation, hevaluation, hf⟩ := List.mem_flatMap.mp h
  obtain ⟨hr, hvisit⟩ := Evaluation.of_mem_ofForest hevaluation
  rw [← Tree.walk_eq_visitsAmong] at hvisit
  by_cases hid : evaluation.rule.id = "capture-discipline"
  · exact ⟨evaluation.rule, hr, hid, ActiveRule.ruleId_of_mem_failures hf⟩
  · have hnone := ActiveRule.failures_survey_of_other hrs hr hid hm hvisit
    rw [Evaluation.result, hnone] at hf
    cases hf

/-- With the rule about captures, a survey has one failure at each closure whose captures cannot be
read, in the order of the walk. -/
theorem failures_of_capture {r : ActiveRule} (hr : r ∈ rs.rules)
    (hid : r.id = "capture-discipline") :
    (ofModel m rs).failures.map (fun f => (f.ruleId, f.place)) =
      (m.walk.filter fun w => UnreadableCaptures w).map
        fun w => ("capture-discipline", Place.ofSpan w.tree.span) := by
  have hrule := eq_captureRule hrs hr hid
  have henter : r.descriptor.phase = .enter := by
    rw [hrule]
    rfl
  have hall : (ofModel m rs).failures.filter (fun f => f.ruleId = r.id) =
      (ofModel m rs).failures := by
    refine List.filter_eq_self.mpr fun f hf => ?_
    obtain ⟨r', -, hid', hf⟩ := ruleId_of_mem_failures hrs hm hf
    rw [hf, hid', hid]
    rfl
  -- Closures are all that the rule looks at, so nothing is lost by looking at them alone.
  have hinspected : (m.walk.filter fun w => UnreadableCaptures w) =
      (m.walk.filter fun w => r.inspects w.tree.kind).filter fun w => UnreadableCaptures w := by
    rw [List.filter_filter]
    refine List.filter_congr fun w _ => ?_
    by_cases hw : UnreadableCaptures w
    · simp [hw, (ActiveRule.inspects_iff_closure hrule _).mpr hw.closure]
    · simp [hw]
  rw [← hall, failures_of_enter (Catalog.nodup_ids_of_resolve (by decide) hrs) hr henter,
    List.map_flatMap, hinspected, ← flatMap_ite_eq_map_filter]
  refine List.flatMap_congr fun w hw => ?_
  obtain ⟨hw, hinspects⟩ := List.mem_filter.mp hw
  have hclosure := (ActiveRule.inspects_iff_closure hrule _).mp hinspects
  exact ActiveRule.failures_survey_capture hrule hm hw hclosure

end Survey

/-- In a unit whose integers can be written, and under a configuration of the standard catalog that
resolves, there is an analysis. Its failures are those of the rule about captures, one at each
closure whose captures cannot be read, and there are none without that rule. Every other evaluation
comes to its end. -/
theorem checks_fail_only_at_unreadable_captures (m : Model) (hm : m.HasShortIntegers)
    (config : Configuration) (rs : ActiveRules) (hrs : Catalog.standard.resolve config = .ok rs) :
    ∃ analysis, Analysis.ofModel m rs = .ok analysis ∧
      (∀ r ∈ rs.rules, r.id = "capture-discipline" →
        analysis.errors.map (fun e => (e.ruleId, e.place)) =
          (m.walk.filter fun w => UnreadableCaptures w).map
            fun w => ("capture-discipline", Place.ofSpan w.tree.span)) ∧
      ((∀ r ∈ rs.rules, r.id ≠ "capture-discipline") → analysis.errors = []) ∧
      ∀ r ∈ rs.rules, ∀ w ∈ m.walk, r.inspects w.tree.kind = true →
        ∃ found, r.evaluate m w = .ok found ∧
          (found.errors ≠ [] ↔ r.id = "capture-discipline" ∧ UnreadableCaptures w) := by
  obtain ⟨hindexed, hrules⟩ := Catalog.of_resolve hrs
  have hspans : ∀ w ∈ m.walk, w.tree.span.isShort = true :=
    fun w hw => (Entry.isShort_span (hm.nodes w hw)).1
  obtain ⟨analysis, hanalysis⟩ := (Analysis.exists_ofModel_iff hindexed).mpr
    (Survey.recordable_of_short (fun r hr => (hrules r hr).1) hspans)
  obtain ⟨-, herrors, -⟩ := (Analysis.ofModel_eq_ok_iff hindexed).mp hanalysis
  refine ⟨analysis, hanalysis, ?_, ?_, ?_⟩
  · intro r hr hid
    have hfailures := Survey.failures_of_capture hrs hm hr hid
    rw [← herrors, List.map_map] at hfailures
    exact hfailures
  · intro hother
    rw [← List.map_eq_nil_iff (f := RuleError.toRuleFailure), herrors]
    refine List.eq_nil_iff_forall_not_mem.mpr fun f hf => ?_
    obtain ⟨r, hr, hid, -⟩ := Survey.ruleId_of_mem_failures hrs hm hf
    exact hother r hr hid
  · intro r hr w hw hinspects
    have hrecordable : ∀ f ∈ (r.survey m w).failures, f.Recordable := by
      intro f hf
      obtain ⟨-, -, -, hplace⟩ := ActiveRule.of_mem_failures_survey hf
      rw [ActiveRule.recordable_iff (hrules r hr).1 hf, hplace, Place.isShort_ofSpan]
      exact hspans w hw
    obtain ⟨found, hfound⟩ := Survey.exists_recorded_iff.mpr hrecordable
    refine ⟨found, (r.evaluate_eq m w).trans hfound, ?_⟩
    have hfailures := congrArg List.length (Survey.recorded_eq_ok_iff.mp hfound).2.1
    rw [List.length_map] at hfailures
    rw [← List.length_pos_iff, hfailures]
    by_cases hid : r.id = "capture-discipline"
    · have hrule := eq_captureRule hrs hr hid
      have hclosure := (ActiveRule.inspects_iff_closure hrule _).mp hinspects
      have hone := congrArg List.length (ActiveRule.failures_survey_capture hrule hm hw hclosure)
      rw [List.length_map] at hone
      rw [hone]
      by_cases hunreadable : UnreadableCaptures w
      · simp [hid, hunreadable]
      · simp [hunreadable]
    · simp [hid, ActiveRule.failures_survey_of_other hrs hr hid hm hw]

/-- A closure with given attributes, at a line. -/
def closureAt (line : Int) (attributes : Entries Value) : Node :=
  .node ⟨.closure, none, ⟨"A", line, 1, line, 9⟩, [], attributes⟩ []

/-- Closures in a component that is referred to: captures that cannot be gone through, pairs of
which one is a text of two characters, and a pair whose key has no hash. -/
def strangeFeed : Node :=
  .node ⟨.component, some "Feed", ⟨"A", 1, 1, 9, 1⟩, [], [("reference_type", .int 1)]⟩
    [closureAt 2 [("captures", .int 5)],
     closureAt 3 [("captures", .str "self"),
      ("capture_list", .tuple [.str "ab", .tuple [.str "self", .str "weak"]])],
     closureAt 4 [("capture_list", .tuple [.tuple [.tuple [.map []], .null]])]]

/-- The component as a unit. -/
def strangeCaptures : Model := .ofForest "A" [strangeFeed] [] []

theorem hasShortIntegers_strangeCaptures : strangeCaptures.HasShortIntegers := by
  have hshort : ∀ n ∈ [(0 : Int), 1, 2, 3, 4, 5, 9], isShort n = true :=
    fun n hn => isShort_of_natAbs_lt (by revert n; decide)
  have hwalk : ∀ w ∈ strangeCaptures.walk, w.tree ∈ strangeFeed :: strangeFeed.children := by
    have hvisits : Tree.visitsAmong [] strangeCaptures.roots =
        ⟨strangeFeed, []⟩ :: strangeFeed.children.map (⟨·, [strangeFeed]⟩) := rfl
    intro w hw
    rw [Model.walk, Tree.walk_eq_visitsAmong, hvisits] at hw
    simpa using List.mem_map_of_mem (f := Tree.Visit.tree) hw
  have hnodes : ∀ t ∈ strangeFeed :: strangeFeed.children, t.value.hasShortIntegers = true := by
    simp [strangeFeed, closureAt, Tree.children, Tree.value, Entry.hasShortIntegers, hshort,
      or_imp, forall_and, Value.isShort, Value.allShort, Value.entriesShort]
  have hlines : ∀ t ∈ strangeFeed :: strangeFeed.children,
      1 ≤ t.span.startLine ∧ t.span.startLine ≤ t.span.endLine := by
    decide
  have hlevels : ∀ t ∈ strangeFeed :: strangeFeed.children,
      Check.nestingLimit.measure strangeCaptures t ∈ [(0 : Int), 1, 2, 3, 4, 5, 9] := by
    have hmeasure : ∀ t, Check.nestingLimit.measure strangeCaptures t =
        Check.levelsBelow t.children := fun t => congrArg Nat.cast (Check.maxNesting_eq t)
    simp only [hmeasure]
    decide
  exact ⟨fun w hw => hnodes _ (hwalk w hw), fun w hw => hlines _ (hwalk w hw),
    fun w hw => hshort _ (hlevels _ (hwalk w hw))⟩

theorem strangeCaptures_fail_at_two_closures :
    ∃ rs analysis, Catalog.standard.resolve twoOwners = .ok rs ∧
      Analysis.ofModel strangeCaptures rs = .ok analysis ∧
      analysis.errors.map (fun e => (e.ruleId, e.place)) =
        [("capture-discipline", Place.ofSpan ⟨"A", 2, 1, 2, 9⟩),
          ("capture-discipline", Place.ofSpan ⟨"A", 4, 1, 4, 9⟩)] := by
  obtain ⟨rs, hrs, r, hr, hid, -⟩ := exists_twoOwners
  obtain ⟨analysis, hanalysis, hfails, -⟩ := checks_fail_only_at_unreadable_captures strangeCaptures
    hasShortIntegers_strangeCaptures twoOwners rs hrs
  refine ⟨rs, analysis, hrs, hanalysis, ?_⟩
  rw [hfails r hr hid]
  unfold Model.walk
  rw [Tree.walk_eq_visitsAmong]
  decide

/-- The rule about identities. -/
def identityRule : Descriptor := standardRules.get ⟨4, by decide⟩

theorem exists_identityRule :
    ∃ config rs, Catalog.standard.resolve config = .ok rs ∧
      ⟨identityRule, "warning", identityRule.defaults⟩ ∈ rs.rules := by
  have hactivate : identityRule.activate {} =
      .ok (some ⟨identityRule, "warning", identityRule.defaults⟩) := by
    refine bind_eq_ok_iff.mpr ⟨identityRule.defaults, ?_, rfl⟩
    rw [List.mergeSort_nil]
    rfl
  obtain ⟨rs, hrs, hr⟩ := Catalog.exists_resolve_of_entry (c := Catalog.standard) (by decide)
    (List.get_mem _ _) (by simp) hactivate
  exact ⟨_, rs, hrs, hr⟩

/-- A repeated list whose identity is an integer with too many digits. -/
def longIdentity : Entry Kind :=
  ⟨.component, some "ForEach", ⟨"A.swift", 1, 1, 9, 1⟩, [], [("id", .int longInteger)]⟩

def longIdentityUnit : Model := .ofForest "A.swift" [.node longIdentity []] [] []

def longIdentityDocument : Value :=
  .map [(.str "kind", .str "component"), (.str "name", .str "ForEach"),
    (.str "span", .list [.int 1, .int 1, .int 9, .int 1]),
    (.str "attributes", .map [(.str "id", .int longInteger)])]

theorem ofDocument_longIdentity :
    Model.ofDocument "m.yml" (documentOf [longIdentityDocument]) =
      .ok longIdentityUnit := by
  refine Model.ofDocument_eq_ok_iff.mpr
    ⟨"A.swift", [], [.node { longIdentity with kind := "component" } []], [], _,
      ⟨⟨_, rfl⟩, rfl, rfl, ⟨_, rfl, ?_⟩, rfl⟩, rfl, rfl⟩
  unfold longIdentityDocument
  rw [Document.readRoots, Document.readNode]
  rfl

theorem writable_longInteger : (Value.int longInteger).writable = false := by
  rw [Value.writable, Value.writableIn, isShort_longInteger]

/-- At a repeated list the check about identities fails if the identity cannot be written. -/
theorem Check.failure_stableIdentity_of_long {ctx : Context}
    (hnamed : ctx.node.isNamed (ctx.names "repeaters") = true)
    (hlong : (ctx.node.attr "id").writable = false) :
    (stableIdentity ctx).failure = some .longInteger := by
  have htext : identityText? ctx.node = .error .longInteger := by
    unfold identityText?
    split
    · rename_i hnull
      rw [hnull] at hlong
      cases hlong
    · rw [plainText, Value.toText_eq, hlong]
      rfl
  simp only [stableIdentity, ofAttempt, hnamed, htext]
  rfl

-- The identity of a repeated list is written down, which an integer can be too long for.
theorem long_identities_fail_to_be_written :
    ¬ ∀ (origin : String) (v : Value) (m : Model), Model.ofDocument origin v = .ok m →
      ∀ (config : Configuration) (rs : ActiveRules), Catalog.standard.resolve config = .ok rs →
      ∀ analysis, Analysis.ofModel m rs = .ok analysis →
      ∀ e ∈ analysis.errors, e.ruleId = "capture-discipline" := by
  intro h
  obtain ⟨config, rs, hrs, hr⟩ := exists_identityRule
  obtain ⟨hindexed, hrules⟩ := Catalog.of_resolve hrs
  have hspans : ∀ v ∈ longIdentityUnit.walk, v.tree.span.isShort = true :=
    Model.isShort_of_near (by decide)
  obtain ⟨analysis, hanalysis⟩ := (Analysis.exists_ofModel_iff hindexed).mpr
    (Survey.recordable_of_short (fun r hr => (hrules r hr).1) hspans)
  let r : ActiveRule := ⟨identityRule, "warning", identityRule.defaults⟩
  let w : Tree.Visit (Entry Kind) := ⟨.node longIdentity [], []⟩
  let f : RuleFailure := ⟨"stable-identity", Place.ofSpan w.tree.span, .longInteger⟩
  have hfails : (r.survey longIdentityUnit w).failures = [f] :=
    ActiveRule.failures_survey_of_failure rfl
      (Check.failure_stableIdentity_of_long rfl writable_longInteger)
  have hmem : f ∈ (Survey.ofModel longIdentityUnit rs).failures.filter
      fun f => f.ruleId = r.id := by
    rw [Survey.failures_of_enter (Catalog.nodup_ids_of_resolve (by decide) hrs) hr rfl]
    refine List.mem_flatMap.mpr ⟨w, ?_, by rw [hfails]; exact List.mem_singleton_self f⟩
    unfold Model.walk
    rw [Tree.walk_eq_visitsAmong]
    exact List.mem_filter.mpr ⟨List.mem_singleton_self w, rfl⟩
  rw [← ((Analysis.ofModel_eq_ok_iff hindexed).mp hanalysis).2.1] at hmem
  obtain ⟨e, he, hef⟩ := List.mem_map.mp (List.mem_filter.mp hmem).1
  have hcapture := h _ _ _ ofDocument_longIdentity config rs hrs analysis hanalysis e he
  rw [hef] at hcapture
  exact absurd hcapture (by decide)

end ComponentLint

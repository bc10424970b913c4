-- What the standard checks see, what they speak of and how they fail. Of the
-- unit they learn nothing but how many lines a span measures, every remark is
-- about the node they look at or about one below it, and there are words for
-- every failure.
import ComponentLint.Check.Standard
import ComponentLint.Proofs.Analysis
import ComponentLint.Proofs.Layout
import ComponentLint.Proofs.StateUses

namespace ComponentLint.Check

/-! ## What a check sees -/

/-- A check that learns from the unit only how its spans measure. -/
def SeesMeasures (check : Check) : Prop :=
  ∀ {m m' : Model}, (∀ s, m.measured s = m'.measured s) → ∀ node ancestors params,
    check ⟨node, ancestors, m, params⟩ = check ⟨node, ancestors, m', params⟩

theorem bodySize_seesMeasures : SeesMeasures bodySize := by
  intro m m' h node ancestors params
  have hmeasure : sizeLimit.measure m node = sizeLimit.measure m' node := h node.span
  unfold bodySize RenderLimit.check RenderLimit.remark ofAttempt
  dsimp only
  rw [hmeasure]
  rfl

/-- No standard rule sees more of the unit than its measures. -/
theorem seesMeasures_of_standard {d : Descriptor} (hd : d ∈ standardRules) {check : Check}
    (hcheck : d.check = some check) : SeesMeasures check := by
  simp only [standardRules, List.mem_cons, List.not_mem_nil, or_false] at hd
  rcases hd with rfl | rfl | rfl | rfl | rfl | rfl | rfl | rfl | rfl <;> cases hcheck
  · exact bodySize_seesMeasures
  all_goals exact fun _ _ _ _ => rfl

/-! ## What a check speaks of -/

/-- A check whose remarks are about the node it looks at or about nodes below it. -/
def SpeaksWithin (check : Check) : Prop :=
  ∀ ctx, ∀ r ∈ (check ctx).remarks, ∃ t ∈ ctx.node.subtrees, r.span = t.span

/-- Remarks that are all about the node looked at. -/
def AboutNode (ctx : Context) (remarks : List Remark) : Prop :=
  ∀ r ∈ remarks, r.span = ctx.node.span

section AboutNode

variable (ctx : Context)

@[simp]
theorem aboutNode_nil : AboutNode ctx [] := by
  simp [AboutNode]

@[simp]
theorem aboutNode_remark (message suggestion : String) :
    AboutNode ctx [ctx.remark message suggestion] := by
  simp [AboutNode, Context.remark]

@[simp]
theorem aboutNode_append (as bs : List Remark) :
    AboutNode ctx (as ++ bs) ↔ AboutNode ctx as ∧ AboutNode ctx bs := by
  simp [AboutNode, or_imp, forall_and]

/-- An attempt is about the node when what it comes to is. -/
theorem aboutNode_ofAttempt {attempt : Context → Except Failure (List Remark)}
    (h : ∀ remarks, attempt ctx = .ok remarks → AboutNode ctx remarks) :
    AboutNode ctx (ofAttempt attempt ctx).remarks := by
  intro r hr
  obtain ⟨remarks, hremarks, hr⟩ := of_mem_ofAttempt hr
  exact h remarks hremarks r hr

theorem renderLimit_aboutNode (l : RenderLimit) : AboutNode ctx (l.check ctx).remarks := by
  refine aboutNode_ofAttempt ctx fun remarks hremarks => ?_
  split at hremarks
  · cases hremarks
    simp
  · split at hremarks
    · obtain ⟨remark, hremark, hlist⟩ := bind_eq_ok_iff.mp hremarks
      obtain ⟨measured, -, hsaid⟩ := bind_eq_ok_iff.mp (mapError_eq_ok_iff.mp hremark)
      obtain ⟨limit, -, hsaid⟩ := bind_eq_ok_iff.mp hsaid
      cases hlist
      cases hsaid
      simp
    · cases hremarks
      simp

theorem naming_aboutNode : AboutNode ctx (naming ctx).remarks := by
  simp only [naming, ofRemarks]
  split
  · split
    · split <;> simp
    · split <;> simp
  · simp

theorem lifecycleTask_aboutNode : AboutNode ctx (lifecycleTask ctx).remarks := by
  simp only [lifecycleTask, ofRemarks]
  split <;> simp

theorem stateOwnership_aboutNode : AboutNode ctx (stateOwnership ctx).remarks := by
  simp only [stateOwnership, ofRemarks]
  split
  · simp
  · rw [aboutNode_append]
    constructor
    · split
      · split <;> simp
      · simp
    · split
      · split <;> simp
      · simp

theorem positionRemarks_aboutNode {name : String} {remarks : List Remark}
    (h : positionRemarks ctx name = .ok remarks) : AboutNode ctx remarks := by
  unfold positionRemarks at h
  split at h
  · cases h
    simp
  · obtain ⟨source, -, hremarks⟩ := bind_eq_ok_iff.mp h
    cases hremarks
    split <;> simp

theorem identityRemarks_aboutNode {name : String} {remarks : List Remark}
    {identity : Option String} (h : identityRemarks ctx name identity = .ok remarks) :
    AboutNode ctx remarks := by
  unfold identityRemarks at h
  split at h
  · exact positionRemarks_aboutNode ctx h
  · split at h
    · cases h
      simp
    · split at h
      · exact positionRemarks_aboutNode ctx h
      · cases h
        simp

theorem stableIdentity_aboutNode : AboutNode ctx (stableIdentity ctx).remarks := by
  refine aboutNode_ofAttempt ctx fun remarks hremarks => ?_
  split at hremarks
  · obtain ⟨identity, -, hidentity⟩ := bind_eq_ok_iff.mp hremarks
    exact identityRemarks_aboutNode ctx hidentity
  · cases hremarks
    simp

theorem captureRemarks_aboutNode {owner name : String} {captures : List Value}
    {modes : List (Value × Value)} {remarks : List Remark}
    (h : captureRemarks ctx owner captures modes name = .ok remarks) : AboutNode ctx remarks := by
  unfold captureRemarks at h
  dsimp only at h
  split at h
  · cases h
    simp
  · obtain ⟨mode, -, hremarks⟩ := bind_eq_ok_iff.mp h
    split at hremarks
    · cases hremarks
      split <;> simp
    · cases hremarks
      split <;> simp

theorem captureDiscipline_aboutNode : AboutNode ctx (captureDiscipline ctx).remarks := by
  refine aboutNode_ofAttempt ctx fun remarks hremarks => ?_
  split at hremarks
  · cases hremarks
    simp
  · simp only [bind_eq_ok_iff] at hremarks
    obtain ⟨captures, -, modes, -, parts, hparts, hflat⟩ := hremarks
    cases hflat
    intro r hr
    obtain ⟨part, hpart, hr⟩ := List.mem_flatten.mp hr
    obtain ⟨name, -, hname⟩ := (mem_mapM_iff hparts).mp hpart
    exact captureRemarks_aboutNode ctx hname r hr

end AboutNode

theorem mem_subtrees_self (t : Node) : t ∈ t.subtrees := by
  simp [Tree.subtrees_eq_cons []]

theorem speaksWithin_of_aboutNode {check : Check} (h : ∀ ctx, AboutNode ctx (check ctx).remarks) :
    SpeaksWithin check :=
  fun ctx r hr => ⟨ctx.node, mem_subtrees_self _, h ctx r hr⟩

/-- An isolation remark is about an identifier below the function or closure. -/
theorem isolation_speaksWithin : SpeaksWithin isolation := by
  intro ctx r hr
  obtain ⟨component, home, domain, helsewhere⟩ := exists_elsewhere_of_mem hr
  rw [helsewhere.isolation_eq] at hr
  obtain ⟨⟨name, n⟩, huse, rfl⟩ := List.mem_map.mp hr
  rw [mem_firstUses_iff, identifiersAmong_eq] at huse
  obtain ⟨v, hv, rfl⟩ := List.mem_map.mp (List.mem_of_find?_eq_some huse.2.2)
  refine ⟨v.tree, ?_, rfl⟩
  rw [Tree.subtrees_eq_cons []]
  exact List.mem_cons_of_mem _ (List.mem_map_of_mem (List.mem_filter.mp hv).1)

/-- No standard rule speaks of anything but the node and what is below it. -/
theorem speaksWithin_of_standard {d : Descriptor} (hd : d ∈ standardRules) {check : Check}
    (hcheck : d.check = some check) : SpeaksWithin check := by
  simp only [standardRules, List.mem_cons, List.not_mem_nil, or_false] at hd
  rcases hd with rfl | rfl | rfl | rfl | rfl | rfl | rfl | rfl | rfl <;> cases hcheck
  · exact speaksWithin_of_aboutNode fun ctx => renderLimit_aboutNode ctx sizeLimit
  · exact speaksWithin_of_aboutNode stateOwnership_aboutNode
  · exact isolation_speaksWithin
  · exact speaksWithin_of_aboutNode captureDiscipline_aboutNode
  · exact speaksWithin_of_aboutNode stableIdentity_aboutNode
  · exact speaksWithin_of_aboutNode lifecycleTask_aboutNode
  · exact speaksWithin_of_aboutNode fun ctx => renderLimit_aboutNode ctx nestingLimit
  · exact speaksWithin_of_aboutNode naming_aboutNode

/-! ## How a check fails -/

section

variable {α : Type} {allowed : Failure → Prop}

theorem settles_ofLong {x : Except Number.LongInteger α}
    (h : allowed .longInteger ∨ ∃ a, x = .ok a) :
    Settles allowed (fun _ => True) (x.mapError Failure.ofLong) := by
  cases x with
  | ok a => trivial
  | error e => exact h.resolve_right (by simp)

theorem settles_plainText {v : Value} (h : allowed .longInteger ∨ v.writable = true) :
    Settles allowed (fun _ => True) (plainText v) :=
  settles_ofLong (h.imp_right v.exists_toText_iff.mpr)

theorem settles_ownDomain? {n : Node}
    (h : allowed .longInteger ∨ (n.attr "isolation").writable = true) (isolating : List String) :
    Settles allowed (fun _ => True) (ownDomain? n isolating) := by
  unfold ownDomain?
  split
  · trivial
  · split
    · trivial
    · dsimp only
      split
      · exact (settles_plainText h).bind fun _ _ => trivial
      · trivial

theorem settles_domainAmong? (isolating : List String) {nodes : List Node}
    (h : ∀ n ∈ nodes, allowed .longInteger ∨ (n.attr "isolation").writable = true) :
    Settles allowed (fun _ => True) (domainAmong? isolating nodes) := by
  induction nodes with
  | nil => trivial
  | cons n rest ih =>
    obtain ⟨hn, hrest⟩ := List.forall_mem_cons.mp h
    rw [domainAmong?]
    split
    · refine (settles_ownDomain? hn isolating).bind fun own _ => ?_
      cases own with
      | none => exact ih hrest
      | some domain => trivial
    · exact ih hrest

theorem settles_captureRemarks (ctx : Context) (owner : String) (captures : List Value)
    {modes : List (Value × Value)} {name : String}
    (h : ∀ mode, Value.entry? name modes = some mode →
      allowed .longInteger ∨ mode.writable = true) :
    Settles allowed (fun _ => True) (captureRemarks ctx owner captures modes name) := by
  unfold captureRemarks
  dsimp only
  split
  · trivial
  · have hmode : allowed .longInteger ∨
        ((Value.entry? name modes).getD (.str "strong")).writable = true := by
      cases hentry : Value.entry? name modes with
      | none => exact Or.inr rfl
      | some mode => exact h mode hentry
    refine (settles_plainText hmode).bind fun mode _ => ?_
    split
    · trivial
    · trivial

theorem settles_positionRemarks {ctx : Context} (name : String)
    (h : allowed .longInteger ∨ (ctx.node.attr "data").writable = true) :
    Settles allowed (fun _ => True) (positionRemarks ctx name) := by
  unfold positionRemarks
  split
  · trivial
  · exact (settles_plainText h).bind fun _ _ => trivial

/-- A check that fails here, if it does, in one of some ways. -/
def FailsOnly (allowed : Failure → Prop) (check : Check) (ctx : Context) : Prop :=
  ∀ failure ∈ (check ctx).failure, allowed failure

variable {ctx : Context}

theorem failsOnly_ofRemarks (f : Context → List Remark) : FailsOnly allowed (ofRemarks f) ctx := by
  intro failure h
  cases h

theorem failsOnly_ofAttempt {attempt : Context → Except Failure (List Remark)}
    (h : Settles allowed (fun _ => True) (attempt ctx)) :
    FailsOnly allowed (ofAttempt attempt) ctx := by
  intro failure hfailure
  unfold ofAttempt at hfailure
  split at hfailure
  · cases hfailure
  · rename_i failure' hattempt
    cases hfailure
    exact h.of_eq_error hattempt

theorem failsOnly_renderLimit {l : RenderLimit}
    (h : allowed .longInteger ∨ ∀ component, l.measure ctx.model ctx.node > ctx.number l.parameter →
      ∃ remark, l.remark ctx component = .ok remark) : FailsOnly allowed l.check ctx := by
  refine failsOnly_ofAttempt ?_
  split
  · trivial
  · rename_i component _
    split
    · rename_i hmore
      exact (settles_ofLong (h.imp_right fun h => h component hmore)).bind fun _ _ => trivial
    · trivial

theorem failsOnly_isolation (h : ∀ n, n = ctx.node ∨ n ∈ ctx.ancestors →
      allowed .longInteger ∨ (n.attr "isolation").writable = true) :
    FailsOnly allowed isolation ctx := by
  refine failsOnly_ofAttempt ?_
  split
  · trivial
  · rename_i component hcomponent
    have haround : component ∈ ctx.ancestors :=
      List.mem_reverse.mp (List.mem_of_find?_eq_some hcomponent)
    refine (settles_ownDomain? (h component (Or.inr haround)) _).bind fun own _ => ?_
    cases own with
    | none => trivial
    | some home =>
      dsimp only
      split
      · trivial
      · refine (settles_domainAmong? _ ?_).bind fun domain _ => ?_
        · intro n hn
          refine h n ?_
          rwa [List.mem_cons, List.mem_reverse] at hn
        · split
          · trivial
          · trivial

theorem failsOnly_captureDiscipline
    (hset : Settles allowed (fun _ => True) (readSet (ctx.node.attr "captures")))
    (hmodes : Settles allowed (fun modes => ∀ name mode, Value.entry? name modes = some mode →
      allowed .longInteger ∨ mode.writable = true) (readMapping (ctx.node.attr "capture_list"))) :
    FailsOnly allowed captureDiscipline ctx := by
  refine failsOnly_ofAttempt ?_
  split
  · trivial
  · refine hset.bind fun captures _ => hmodes.bind fun modes hmode => ?_
    exact (Settles.mapM fun name _ => settles_captureRemarks ctx _ captures (hmode name)).bind
      fun _ _ => trivial

theorem failsOnly_stableIdentity
    (hid : allowed .longInteger ∨ (ctx.node.attr "id").writable = true)
    (hdata : allowed .longInteger ∨ (ctx.node.attr "data").writable = true) :
    FailsOnly allowed stableIdentity ctx := by
  refine failsOnly_ofAttempt ?_
  split
  · have hidentity : Settles allowed (fun _ => True) (identityText? ctx.node) := by
      unfold identityText?
      split
      · trivial
      · exact (settles_plainText hid).bind fun _ _ => trivial
    refine hidentity.bind fun identity _ => ?_
    unfold identityRemarks
    split
    · exact settles_positionRemarks _ hdata
    · split
      · trivial
      · split
        · exact settles_positionRemarks _ hdata
        · trivial
  · trivial

end

/-! ## Failures in words -/

/-- A failure that has words. -/
def Spoken (failure : Failure) : Prop := ∃ text, failure.text = .ok text

theorem spoken_longInteger : Spoken .longInteger := ⟨_, rfl⟩

theorem settles_readSet (v : Value) : Settles Spoken (fun _ => True) (readSet v) := by
  unfold readSet
  split
  · split
    · exact ⟨_, rfl⟩
    · split
      · exact ⟨_, rfl⟩
      · trivial
  · trivial

theorem settles_readPair (index : Nat) (v : Value) :
    Settles Spoken (fun _ => True) (readPair index v) := by
  unfold readPair
  split
  · exact ⟨_, rfl⟩
  · split
    · exact ⟨_, rfl⟩
    · trivial
  · exact ⟨_, rfl⟩

theorem settles_readPairs (first : Nat) (done : List (Value × Value)) (items : List Value) :
    Settles Spoken (fun _ => True) (readPairs first done items) := by
  induction items generalizing first done with
  | nil => trivial
  | cons v rest ih => exact (settles_readPair first v).bind fun pair _ => ih _ _

theorem settles_readMapping (v : Value) : Settles Spoken (fun _ => True) (readMapping v) := by
  unfold readMapping
  split
  · split
    · trivial
    · split
      · exact ⟨_, rfl⟩
      · exact settles_readPairs _ _ _
  · trivial

/-- The failures of the standard checks all have words. -/
theorem failsOnly_spoken_of_standard {d : Descriptor} (hd : d ∈ standardRules) {check : Check}
    (hcheck : d.check = some check) (ctx : Context) : FailsOnly Spoken check ctx := by
  have hlong := spoken_longInteger
  simp only [standardRules, List.mem_cons, List.not_mem_nil, or_false] at hd
  rcases hd with rfl | rfl | rfl | rfl | rfl | rfl | rfl | rfl | rfl <;> cases hcheck
  · exact failsOnly_renderLimit (Or.inl hlong)
  · exact failsOnly_ofRemarks _
  · exact failsOnly_isolation fun _ _ => Or.inl hlong
  · exact failsOnly_captureDiscipline (settles_readSet _)
      ((settles_readMapping _).imp fun _ _ _ _ _ => Or.inl hlong)
  · exact failsOnly_stableIdentity (Or.inl hlong) (Or.inl hlong)
  · exact failsOnly_ofRemarks _
  · exact failsOnly_renderLimit (Or.inl hlong)
  · exact failsOnly_ofRemarks _

end ComponentLint.Check

namespace ComponentLint

/-! ## Whole analyses -/

namespace ActiveRules

/-- A run of standard rules only. -/
def Standard (rs : ActiveRules) : Prop := ∀ r ∈ rs.rules, r.descriptor ∈ standardRules

end ActiveRules

theorem ActiveRule.recordable_iff {r : ActiveRule} (hstandard : r.descriptor ∈ standardRules)
    {m : Model} {v : Tree.Visit (Entry Kind)} {f : RuleFailure}
    (h : f ∈ (r.survey m v).failures) : f.Recordable ↔ f.place.isShort = true := by
  refine ⟨And.left, fun hshort => ⟨hshort, ?_⟩⟩
  obtain ⟨check, hcheck, hfailure, -⟩ := ActiveRule.of_mem_failures_survey h
  exact Check.failsOnly_spoken_of_standard hstandard hcheck _ _ hfailure

namespace Survey

variable {m m' : Model} {rs : ActiveRules}

/-- What standard rules find at some nodes does not change as long as the measures do not. -/
theorem ofEvaluations_congr {es : List Evaluation}
    (hstandard : ∀ e ∈ es, e.rule.descriptor ∈ standardRules)
    (hmeasured : ∀ s, m.measured s = m'.measured s) (visited : Nat) :
    ofEvaluations m es visited = ofEvaluations m' es visited := by
  have hresult : ∀ e ∈ es, e.result m = e.result m' := by
    intro e he
    unfold Evaluation.result ActiveRule.survey
    cases hcheck : e.rule.descriptor.check with
    | none => rfl
    | some check =>
      dsimp only
      rw [Check.seesMeasures_of_standard (hstandard e he) hcheck hmeasured]
  unfold ofEvaluations
  congr 1
  · exact List.flatMap_congr fun e he => by rw [hresult e he]
  · exact List.flatMap_congr fun e he => by rw [hresult e he]

/-- Units with the same nodes and the same measures are alike to the standard rules. -/
theorem ofModel_congr (hstandard : rs.Standard) (hroots : m.roots = m'.roots)
    (hmeasured : ∀ s, m.measured s = m'.measured s) : ofModel m rs = ofModel m' rs := by
  unfold ofModel Model.walk
  rw [hroots]
  exact ofEvaluations_congr (fun e he => hstandard _ (Evaluation.of_mem_ofForest he).1) hmeasured _

/-- The findings of the standard rules on an accepted unit are all in its file. -/
theorem file_of_mem_findings (hstandard : rs.Standard) (hm : m.Accepted) {f : Finding}
    (h : f ∈ (ofModel m rs).findings) : f.span.file = m.file := by
  obtain ⟨e, he, hf⟩ := List.mem_flatMap.mp h
  obtain ⟨check, hcheck, remark, hremark, rfl⟩ := ActiveRule.of_mem_survey hf
  obtain ⟨hrule, hvisit⟩ := Evaluation.of_mem_ofForest he
  obtain ⟨t, ht, hspan⟩ := Check.speaksWithin_of_standard (hstandard _ hrule) hcheck _ _ hremark
  obtain ⟨w, hw, rfl⟩ := Tree.subtree_of_mem_visits hvisit ht
  have hfile := (hm.laid.of_mem_visits [] w hw).1
  rw [← hspan] at hfile
  exact hfile

/-- What standard rules fail at can be put on record as far as the places can be written. -/
theorem recordable_iff (hstandard : rs.Standard) {f : RuleFailure}
    (h : f ∈ (ofModel m rs).failures) : f.Recordable ↔ f.place.isShort = true := by
  obtain ⟨e, he, hf⟩ := List.mem_flatMap.mp h
  exact ActiveRule.recordable_iff (hstandard _ (Evaluation.of_mem_ofForest he).1) hf

/-- The standard rules leave an analysis of every unit whose spans can be written. -/
theorem recordable_of_short (hstandard : rs.Standard)
    (hshort : ∀ v ∈ m.walk, v.tree.span.isShort = true) :
    ∀ f ∈ (ofModel m rs).failures, f.Recordable := by
  intro f hf
  rw [recordable_iff hstandard hf]
  obtain ⟨e, he, hf⟩ := List.mem_flatMap.mp hf
  obtain ⟨-, -, -, hplace⟩ := ActiveRule.of_mem_failures_survey hf
  have hvisit := (Evaluation.of_mem_ofForest he).2
  rw [← Tree.walk_eq_visitsAmong] at hvisit
  rw [hplace, Place.isShort_ofSpan]
  exact hshort _ hvisit

end Survey

/-- Spans that start on lines and in columns of a few digits can be written. -/
theorem Model.isShort_of_near {m : Model} (h : ∀ v ∈ Tree.visitsAmong [] m.roots,
      v.tree.span.startLine.natAbs < 10000 ∧ v.tree.span.startCol.natAbs < 10000) :
    ∀ v ∈ m.walk, v.tree.span.isShort = true := by
  intro v hv
  rw [walk, Tree.walk_eq_visitsAmong] at hv
  exact Span.isShort_of_natAbs_lt (h v hv).1 (h v hv).2

end ComponentLint

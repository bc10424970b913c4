-- What is flagged by the limits on rendering functions. As the walk leaves the
-- nodes, each function with a rendering name right below a component is flagged
-- once if it measures more than the limit of the run and the measure is not too
-- long to be written, and nothing else is. So a higher limit flags no more than a
-- lower one.
import ComponentLint.Proofs.DomainNames
import ComponentLint.Proofs.InnermostNode
import ComponentLint.Proofs.NestingLevels
import ComponentLint.Proofs.RulePasses

namespace ComponentLint

open ComponentLint.Number

/-! ## Parameters in a run -/

namespace Descriptor

/-- Setting parameters keeps each of them in its domain. -/
theorem exists_holds_of_bind {d : Descriptor} {params values bound : Entries Value}
    (h : d.bind params values = .ok bound) {name : String} {p : Parameter}
    (hp : d.param? name = some p) (hparams : ∃ w, params.get? name = some w ∧ p.Holds w) :
    ∃ w, bound.get? name = some w ∧ p.Holds w := by
  induction values generalizing params with
  | nil =>
    cases h
    exact hparams
  | cons e rest ih =>
    obtain ⟨key, v⟩ := e
    obtain ⟨w, hw, hrest⟩ := bind_eq_ok_iff.mp h
    apply ih hrest
    rw [Entries.get?_put]
    by_cases hkey : key = name
    · subst hkey
      obtain ⟨p', hp', hcoerce⟩ := coerce_eq_ok_iff.mp hw
      cases hp.symm.trans hp'
      exact ⟨w, if_pos rfl, Parameter.holds_of_coerce hcoerce⟩
    · rw [if_neg hkey]
      exact hparams

/-- A parameter that is in its domain by default is in its domain in every run. -/
theorem exists_holds_of_activate {d : Descriptor} {config : RuleConfig} {r : ActiveRule}
    (h : d.activate config = .ok (some r)) {name : String} {p : Parameter}
    (hp : d.param? name = some p) (hdefault : ∃ w, d.defaults.get? name = some w ∧ p.Holds w) :
    ∃ w, r.params.get? name = some w ∧ p.Holds w := by
  obtain ⟨values, hbound⟩ := exists_bind_of_activate h
  exact exists_holds_of_bind hbound hp hdefault

end Descriptor

/-! ## Rendering functions -/

namespace Check

/-- A rendering function: a function with one of some names whose parent is a component. -/
structure Renders (names : List String) (v : Tree.Visit (Entry Kind)) : Prop where
  function : v.tree.kind = .function
  named : ∃ name ∈ names, v.tree.name = some name
  parent : ∃ component, v.ancestors.getLast? = some component ∧ component.kind = .component

/-- Whether a node is a rendering function. -/
def renders (names : List String) (v : Tree.Visit (Entry Kind)) : Bool :=
  v.tree.kind == .function && v.tree.isNamed names &&
    v.ancestors.getLast?.any fun parent => parent.kind == .component

theorem isNamed_iff {n : Node} {names : List String} :
    n.isNamed names = true ↔ ∃ name ∈ names, n.name = some name := by
  unfold Tree.isNamed
  cases n.name with
  | none => simp
  | some name => simp [eq_comm]

theorem renders_iff {names : List String} {v : Tree.Visit (Entry Kind)} :
    renders names v = true ↔ Renders names v := by
  unfold renders
  rw [Bool.and_eq_true, Bool.and_eq_true, beq_iff_eq, isNamed_iff, Option.any_eq_true]
  constructor
  · rintro ⟨⟨hfunction, hnamed⟩, component, hcomponent, hkind⟩
    exact ⟨hfunction, hnamed, component, hcomponent, by simpa using hkind⟩
  · rintro ⟨hfunction, hnamed, component, hcomponent, hkind⟩
    exact ⟨⟨hfunction, hnamed⟩, component, hcomponent, by simpa using hkind⟩

namespace RenderLimit

variable (l : RenderLimit) (m : Model) (names : List String) {limit limit' : Int}

/-- The rendering functions of a unit that measure more than a limit, as a walk leaves them. -/
def exceeding (limit : Int) : List (Tree.Visit (Entry Kind)) :=
  m.departures.filter fun v => renders names v && limit < l.measure m v.tree

theorem mem_exceeding_iff {v : Tree.Visit (Entry Kind)} :
    v ∈ l.exceeding m names limit ↔
      v ∈ m.walk ∧ Renders names v ∧ limit < l.measure m v.tree := by
  unfold exceeding
  rw [List.mem_filter, m.departures_perm.mem_iff, Bool.and_eq_true, renders_iff,
    decide_eq_true_iff]

theorem exceeding_sublist (h : limit ≤ limit') :
    (l.exceeding m names limit').Sublist (l.exceeding m names limit) := by
  unfold exceeding
  apply List.monotone_filter_right
  intro v hv
  rw [Bool.and_eq_true, decide_eq_true_iff] at hv ⊢
  exact ⟨hv.1, by omega⟩

/-- The remark about the rendering function of a component, however long the measure is. -/
def said (ctx : Context) (component : Node) : Remark :=
  ctx.remark (l.message component.nameText (toString (l.measure ctx.model ctx.node))
    (toString (ctx.number l.parameter))) l.suggestion

theorem remark_eq (ctx : Context) (component : Node) :
    l.remark ctx component =
      unlessLong (isShort (l.measure ctx.model ctx.node) && isShort (ctx.number l.parameter))
        (l.said ctx component) := by
  unfold remark
  simp only [writeInt_eq, unlessLong_bind_pure]
  rw [unlessLong_bind_unlessLong (fun _ => isShort (ctx.number l.parameter))]
  rfl

/-- The finding of a rule about a rendering function, if there is a node around it. -/
def findingAt (r : ActiveRule) (v : Tree.Visit (Entry Kind)) : Option Finding :=
  v.ancestors.getLast?.map fun component => r.finding (l.said (r.contextAt m v) component)

/-- The functions that a limit flags: those that measure more, where the measure can be written. -/
def flagged (limit : Int) : List (Tree.Visit (Entry Kind)) :=
  (l.exceeding m names limit).filter fun v => isShort (l.measure m v.tree)

theorem mem_flagged_iff {v : Tree.Visit (Entry Kind)} :
    v ∈ l.flagged m names limit ↔ v ∈ m.walk ∧ Renders names v ∧ limit < l.measure m v.tree ∧
      isShort (l.measure m v.tree) = true := by
  rw [flagged, List.mem_filter, mem_exceeding_iff]
  simp only [and_assoc]

theorem nodup_flagged {m : Model} (hm : m.Accepted) :
    ((l.flagged m names limit).map Tree.Visit.tree).Nodup := by
  have hleft : (m.departures.map Tree.Visit.tree).Nodup :=
    (m.departures_perm.map _).nodup_iff.mpr hm.nodup_trees
  exact ((List.filter_sublist.trans List.filter_sublist).map _).nodup hleft

theorem flagged_sublist (h : limit ≤ limit') :
    (l.flagged m names limit').Sublist (l.flagged m names limit) :=
  (l.exceeding_sublist m names h).filter _

end RenderLimit

end Check

/-! ## Rules with a limit -/

/-- A rule that holds rendering functions to a limit. -/
structure Descriptor.Limits (d : Descriptor) (l : Check.RenderLimit) : Prop where
  check : d.check = some l.check
  kinds : d.kinds = [.function]
  phase : d.phase = .exit
  names : ∃ p, d.param? "bodyNames" = some p ∧ p.domain = .names ∧
    ∃ w, d.defaults.get? "bodyNames" = some w ∧ p.Holds w
  limit : ∃ p, d.param? l.parameter = some p ∧ p.domain = .int ∧ p.minimum = some 1 ∧
    ∃ w, d.defaults.get? l.parameter = some w ∧ p.Holds w

/-- The rules with a limit, by their ids. -/
inductive LimitedBy : String → Check.RenderLimit → Prop
  | bodySize : LimitedBy "body-size-limit" Check.sizeLimit
  | nesting : LimitedBy "nesting-depth" Check.nestingLimit

theorem LimitedBy.exists_limits {id : String} {l : Check.RenderLimit} (h : LimitedBy id l) :
    ∃ d ∈ standardRules, d.id = id ∧ d.Limits l := by
  have hclean : Clean ["body"] := by
    intro name hname
    cases List.mem_singleton.mp hname
    decide
  cases h with
  | bodySize =>
    refine ⟨standardRules.get ⟨0, by decide⟩, List.get_mem _ _, rfl, rfl, rfl, rfl, ?_, ?_⟩
    · exact ⟨_, rfl, rfl, _, rfl, ["body"], rfl, hclean⟩
    · exact ⟨_, rfl, rfl, rfl, _, rfl, 50, rfl, by decide⟩
  | nesting =>
    refine ⟨standardRules.get ⟨6, by decide⟩, List.get_mem _ _, rfl, rfl, rfl, rfl, ?_, ?_⟩
    · exact ⟨_, rfl, rfl, _, rfl, ["body"], rfl, hclean⟩
    · exact ⟨_, rfl, rfl, rfl, _, rfl, 8, rfl, by decide⟩

/-- The rule of a run is the standard one, since no other rule of the catalog has its id. -/
theorem LimitedBy.limits_of_resolve {id : String} {l : Check.RenderLimit} (h : LimitedBy id l)
    {c : Catalog} (hids : (c.descriptors.map Descriptor.id).Nodup)
    (hstandard : standardRules ⊆ c.descriptors) {config : Configuration} {rs : ActiveRules}
    {r : ActiveRule} (hrs : c.resolve config = .ok rs) (hr : r ∈ rs.rules) (hid : r.id = id) :
    r.descriptor.Limits l := by
  obtain ⟨d, hd, hdid, hlimits⟩ := h.exists_limits
  have hmem := ((Catalog.of_resolve hrs).2 r hr).1
  have hsame := List.inj_on_of_nodup_map hids hmem (hstandard hd) (hid.trans hdid.symm)
  rw [hsame]
  exact hlimits

namespace ActiveRule

/-- A rule of a run with the rendering names and the limit that it is bound to. -/
structure LimitedTo (r : ActiveRule) (l : Check.RenderLimit) (names : List String) (limit : Int) :
    Prop where
  bodyNames : r.params.get? "bodyNames" = some (namesValue names)
  bound : r.params.get? l.parameter = some (.int limit)
  positive : 1 ≤ limit

variable {r : ActiveRule} {l : Check.RenderLimit} {names : List String} {limit : Int}

theorem exists_limitedTo {config : RuleConfig} (hlimits : r.descriptor.Limits l)
    (h : r.descriptor.activate config = .ok (some r)) :
    ∃ names limit, r.LimitedTo l names limit := by
  obtain ⟨p, hp, hdomain, hdefault⟩ := hlimits.names
  obtain ⟨w, hnames, hw⟩ := Descriptor.exists_holds_of_activate h hp hdefault
  simp only [Parameter.Holds, hdomain] at hw
  obtain ⟨names, rfl, -⟩ := hw
  obtain ⟨p, hp, hdomain, hminimum, hdefault⟩ := hlimits.limit
  obtain ⟨w, hlimit, hw⟩ := Descriptor.exists_holds_of_activate h hp hdefault
  simp only [Parameter.Holds, hdomain, hminimum] at hw
  obtain ⟨limit, rfl, hleast⟩ := hw
  exact ⟨names, limit, hnames, hlimit, hleast 1 rfl⟩

theorem LimitedTo.names_contextAt (h : r.LimitedTo l names limit) (m : Model)
    (v : Tree.Visit (Entry Kind)) : (r.contextAt m v).names "bodyNames" = names := by
  unfold Context.names contextAt
  dsimp only
  rw [h.bodyNames]
  simp [namesValue, Value.text?, List.filterMap_map, Function.comp_def]

theorem LimitedTo.number_contextAt (h : r.LimitedTo l names limit) (m : Model)
    (v : Tree.Visit (Entry Kind)) : (r.contextAt m v).number l.parameter = limit := by
  unfold Context.number contextAt
  dsimp only
  rw [h.bound]

/-- A measure above the limit that can be written is said with the limit. -/
theorem LimitedTo.remark_eq (h : r.LimitedTo l names limit) {m : Model}
    {v : Tree.Visit (Entry Kind)} (hmore : limit < l.measure m v.tree) (component : Node) :
    l.remark (r.contextAt m v) component =
      unlessLong (isShort (l.measure m v.tree)) (l.said (r.contextAt m v) component) := by
  rw [Check.RenderLimit.remark_eq, h.number_contextAt]
  congr 1
  have hnode : (r.contextAt m v).node = v.tree := rfl
  have hmodel : (r.contextAt m v).model = m := rfl
  rw [hnode, hmodel, Bool.and_eq_left_iff_imp]
  intro hshort
  have hzero : isShort 0 = true := isShort_of_natAbs_lt (by decide)
  have hpositive := h.positive
  exact isShort_of_le hzero hshort (by omega) (by omega)

/-- At a function, a rule with a limit has one finding if the function is a rendering function that
measures more and the measure can be written, and else none. -/
theorem LimitedTo.findings_survey (h : r.LimitedTo l names limit)
    (hlimits : r.descriptor.Limits l) (m : Model) {v : Tree.Visit (Entry Kind)}
    (hfunction : v.tree.kind = .function) :
    (r.survey m v).findings.map some =
      if (Check.renders names v && limit < l.measure m v.tree) && isShort (l.measure m v.tree)
        then [l.findingAt m r v] else [] := by
  rw [findings_survey_ofAttempt hlimits.check]
  have hnode : (r.contextAt m v).node = v.tree := rfl
  have hmodel : (r.contextAt m v).model = m := rfl
  have hparent : (r.contextAt m v).parent? = v.ancestors.getLast? := rfl
  simp only [Check.ofAttempt, Check.renderedComponent?, Check.renders,
    Check.RenderLimit.findingAt, hnode, hmodel, hparent, h.names_contextAt, h.number_contextAt,
    hfunction]
  cases v.ancestors.getLast? with
  | none => simp
  | some component =>
    rw [Option.filter_some]
    by_cases hkind : component.kind = .component
    · by_cases hnamed : v.tree.isNamed names = true
      · by_cases hmore : limit < l.measure m v.tree
        · rw [if_pos (by simp [hkind, hnamed])]
          dsimp only
          rw [if_pos hmore, h.remark_eq hmore]
          cases hshort : isShort (l.measure m v.tree) <;>
            simp [hkind, hnamed, hmore, unlessLong, bind, Except.bind, pure,
              Except.pure]
        · simp [hkind, hnamed, hmore]
      · simp [hkind, hnamed]
    · simp [hkind]

end ActiveRule

namespace Survey

variable {m : Model} {rs : ActiveRules} {r : ActiveRule} {l : Check.RenderLimit}
  {names : List String} {limit : Int}

/-- What a survey holds of a rule with a limit, one finding for each function that is flagged. -/
theorem findings_of_limit (hids : (rs.rules.map ActiveRule.id).Nodup) (hr : r ∈ rs.rules)
    (hlimits : r.descriptor.Limits l) (h : r.LimitedTo l names limit) :
    ((ofModel m rs).findings.filter fun f => f.ruleId = r.id).map some =
      (l.flagged m names limit).map (l.findingAt m r) := by
  rw [findings_of_exit hids hr hlimits.phase]
  unfold Check.RenderLimit.flagged Check.RenderLimit.exceeding
  rw [List.filter_filter]
  induction m.departures with
  | nil => rfl
  | cons v vs ih =>
    rw [List.filter_cons, List.filter_cons]
    by_cases hfunction : v.tree.kind = .function
    · have hinspects : r.inspects v.tree.kind = true := by
        simp [ActiveRule.inspects, hlimits.check, hlimits.kinds, hfunction]
      rw [if_pos hinspects, List.flatMap_cons, List.map_append, ih,
        h.findings_survey hlimits m hfunction, Bool.and_comm]
      split <;> rfl
    · have hinspects : ¬ r.inspects v.tree.kind = true := by
        simp [ActiveRule.inspects, hlimits.kinds, hfunction]
      have hrenders : Check.renders names v = false := by
        simp [Check.renders, hfunction]
      rw [if_neg hinspects, ih, hrenders, Bool.false_and, Bool.and_false]
      rfl

theorem spans_of_limit (hids : (rs.rules.map ActiveRule.id).Nodup) (hr : r ∈ rs.rules)
    (hlimits : r.descriptor.Limits l) (h : r.LimitedTo l names limit) :
    ((ofModel m rs).findings.filter fun f => f.ruleId = r.id).map Finding.span =
      (l.flagged m names limit).map fun v => v.tree.span := by
  apply List.map_injective_iff.mpr (Option.some_injective _)
  have hfindings := congrArg (List.map (Option.map Finding.span))
    (findings_of_limit (m := m) hids hr hlimits h)
  rw [List.map_map, List.map_map] at hfindings
  rw [List.map_map, List.map_map]
  refine hfindings.trans (List.map_congr_left fun v hv => ?_)
  have hexceeds := (List.mem_filter.mp hv).1
  obtain ⟨component, hcomponent, -⟩ := ((l.mem_exceeding_iff m names).mp hexceeds).2.1.parent
  simp only [Function.comp_apply, Check.RenderLimit.findingAt, hcomponent, Option.map_some]
  rfl

end Survey

/-- Under a configuration that resolves, a rule with a limit has the rendering names and the limit
that it is bound to. The findings of an analysis are one for each rendering function of an accepted
unit that measures more, in the order in which the walk leaves them, where the measure is not too
long to be written. Nesting is measured by the recursive maximum, which is the greatest number of
levels on any way down. Under a higher limit no function is flagged that is not flagged under a
lower one. -/
theorem rendering_functions_are_flagged_beyond_their_limits (c : Catalog)
    (hids : (c.descriptors.map Descriptor.id).Nodup) (hstandard : standardRules ⊆ c.descriptors)
    (m : Model) (hm : m.Accepted) (id : String) (l : Check.RenderLimit) (hl : LimitedBy id l)
    (config : Configuration) (rs : ActiveRules) (hrs : c.resolve config = .ok rs)
    (r : ActiveRule) (hr : r ∈ rs.rules) (hid : r.id = id) :
    (∃ names limit, r.LimitedTo l names limit) ∧
    ((∃ analysis, Analysis.ofModel m rs = .ok analysis) ↔
      ∀ f ∈ (Survey.ofModel m rs).failures, f.Recordable) ∧
    (∀ n, Check.nestingLimit.measure m n = Check.levelsBelow n.children ∧
      IsGreatest {k | ∃ way, Check.Descends n.children way ∧ Check.levelsOn way = k}
        (Check.levelsBelow n.children)) ∧
    ∀ names limit, r.LimitedTo l names limit →
      ((l.flagged m names limit).map Tree.Visit.tree).Nodup ∧
      (∀ v, v ∈ l.flagged m names limit ↔ v ∈ m.walk ∧ Check.Renders names v ∧
        limit < l.measure m v.tree ∧ isShort (l.measure m v.tree) = true) ∧
      ∀ analysis, Analysis.ofModel m rs = .ok analysis →
        (analysis.findings.filter fun f => f.ruleId = id).map some =
          (l.flagged m names limit).map (l.findingAt m r) ∧
        ∀ config' rs' r' limit' analysis', c.resolve config' = .ok rs' → r' ∈ rs'.rules →
          r'.id = id → r'.LimitedTo l names limit' → limit ≤ limit' →
          Analysis.ofModel m rs' = .ok analysis' →
          ((analysis'.findings.filter fun f => f.ruleId = id).map Finding.span).Sublist
            ((analysis.findings.filter fun f => f.ruleId = id).map Finding.span) := by
  have hrule : ∀ {config rs} {r : ActiveRule}, c.resolve config = .ok rs → r ∈ rs.rules →
      r.id = id → r.descriptor.Limits l := hl.limits_of_resolve hids hstandard
  have hspans : ∀ {config rs} {r : ActiveRule} {names limit analysis}, c.resolve config = .ok rs →
      r ∈ rs.rules → r.id = id → r.LimitedTo l names limit → Analysis.ofModel m rs = .ok analysis →
      (analysis.findings.filter fun f => f.ruleId = id).map Finding.span =
        (l.flagged m names limit).map fun v => v.tree.span := by
    intro config rs r names limit analysis hrs hr hid hlimited hanalysis
    rw [((Analysis.ofModel_eq_ok_iff (Catalog.of_resolve hrs).1).mp hanalysis).1, ← hid]
    exact Survey.spans_of_limit (Catalog.nodup_ids_of_resolve hids hrs) hr (hrule hrs hr hid)
      hlimited
  refine ⟨?_, Analysis.exists_ofModel_iff (Catalog.of_resolve hrs).1, ?_, ?_⟩
  · exact ActiveRule.exists_limitedTo (hrule hrs hr hid)
      ((Catalog.activated_of_resolve hrs).2 r hr).2
  · intro n
    exact ⟨congrArg Nat.cast (Check.maxNesting_eq n), Check.isGreatest_levelsBelow n.children⟩
  · intro names limit hlimited
    refine ⟨l.nodup_flagged names hm, fun v => l.mem_flagged_iff m names, ?_⟩
    intro analysis hanalysis
    constructor
    · rw [((Analysis.ofModel_eq_ok_iff (Catalog.of_resolve hrs).1).mp hanalysis).1, ← hid]
      exact Survey.findings_of_limit (Catalog.nodup_ids_of_resolve hids hrs) hr
        (hrule hrs hr hid) hlimited
    · intro config' rs' r' limit' analysis' hrs' hr' hid' hlimited' hle hanalysis'
      rw [hspans hrs hr hid hlimited hanalysis, hspans hrs' hr' hid' hlimited' hanalysis']
      exact (l.flagged_sublist m names hle).map _

/-- A run in which a rule holds rendering functions to so much. -/
theorem LimitedBy.exists_resolve {id : String} {l : Check.RenderLimit} (hl : LimitedBy id l)
    (limit : Int) (h : 1 ≤ limit) :
    ∃ config rs, Catalog.standard.resolve config = .ok rs ∧
      ∃ r ∈ rs.rules, r.id = id ∧ r.LimitedTo l ["body"] limit := by
  cases hl with
  | bodySize =>
    have hcoerce : (standardRules.get ⟨0, by decide⟩).coerce "maxBodyLines" (.int limit) =
        .ok (.int limit) :=
      Descriptor.coerce_eq_ok_iff.mpr ⟨.ofInt "maxBodyLines" 50 1 "Counted lines allowed.", rfl,
        (Parameter.coerce_int_eq_ok_iff rfl).mpr ⟨rfl, by simpa [Parameter.ofInt] using h⟩⟩
    obtain ⟨rs, hrs, hr⟩ := Catalog.exists_resolve_of_setting Catalog.nodup_standard_ids
      (List.get_mem _ _) (some true) rfl hcoerce
    exact ⟨_, rs, hrs, _, hr, rfl, rfl, rfl, h⟩
  | nesting =>
    have hcoerce : (standardRules.get ⟨6, by decide⟩).coerce "maxDepth" (.int limit) =
        .ok (.int limit) :=
      Descriptor.coerce_eq_ok_iff.mpr ⟨.ofInt "maxDepth" 8 1, rfl,
        (Parameter.coerce_int_eq_ok_iff rfl).mpr ⟨rfl, by simpa [Parameter.ofInt] using h⟩⟩
    obtain ⟨rs, hrs, hr⟩ := Catalog.exists_resolve_of_setting Catalog.nodup_standard_ids
      (List.get_mem _ _) (some true) rfl hcoerce
    exact ⟨_, rs, hrs, _, hr, rfl, rfl, rfl, h⟩

section

variable {κ : Type} (kindOf : Kind → κ)

/-- A body with a closure in a modifier. -/
def nestedBody : Tree (Entry κ) :=
  .node ⟨kindOf .function, some "body", ⟨"Card", 2, 1, 8, 1⟩, [], []⟩
    [.node ⟨kindOf .identifier, some "title", ⟨"Card", 3, 1, 3, 5⟩, [], []⟩ [],
     .node ⟨kindOf .modifier, some "overlay", ⟨"Card", 4, 1, 7, 1⟩, [], []⟩
      [.node ⟨kindOf .closure, none, ⟨"Card", 5, 1, 6, 1⟩, [], []⟩ []]]

/-- The component that the body renders. -/
def nestedCard : Tree (Entry κ) :=
  .node ⟨kindOf .component, some "Card", ⟨"Card", 1, 1, 9, 1⟩, [], []⟩ [nestedBody kindOf]

end

/-- The component as a unit. -/
def nestedUnit : Model := .ofForest "Card" [nestedCard id] [] []

theorem nestedCard_is_flagged_beyond_one_level :
    ∃ config rs analysis config' rs' analysis', Catalog.standard.resolve config = .ok rs ∧
      Catalog.standard.resolve config' = .ok rs' ∧
      Analysis.ofModel nestedUnit rs = .ok analysis ∧
      Analysis.ofModel nestedUnit rs' = .ok analysis' ∧
      (∃ f ∈ analysis.findings, f.ruleId = "nesting-depth" ∧ f.span = ⟨"Card", 2, 1, 8, 1⟩) ∧
      ((analysis'.findings.filter fun f => f.ruleId = "nesting-depth").map Finding.span).Sublist
        ((analysis.findings.filter fun f => f.ruleId = "nesting-depth").map Finding.span) := by
  obtain ⟨config, rs, hrs, r, hr, hid, hlimited⟩ :=
    LimitedBy.nesting.exists_resolve 1 (by decide)
  obtain ⟨config', rs', hrs', r', hr', hid', hlimited'⟩ :=
    LimitedBy.nesting.exists_resolve 2 (by decide)
  have haccepted : nestedUnit.Accepted := by
    have hmade : Model.ofDrafts "Card" [nestedCard Kind.name] [] [] = .ok nestedUnit :=
      Model.ofDrafts_eq_ok_iff.mpr ⟨_, rfl, rfl⟩
    exact Model.accepted_of_ofDrafts hmade
  have hshort : ∀ v ∈ nestedUnit.walk, v.tree.span.isShort = true :=
    Model.isShort_of_near (by decide)
  have hexists : ∀ {config rs}, Catalog.standard.resolve config = .ok rs →
      ∃ analysis, Analysis.ofModel nestedUnit rs = .ok analysis := by
    intro config rs hrs
    obtain ⟨hindexed, hrules⟩ := Catalog.of_resolve hrs
    exact (Analysis.exists_ofModel_iff hindexed).mpr
      (Survey.recordable_of_short (fun r hr => (hrules r hr).1) hshort)
  obtain ⟨analysis, hanalysis⟩ := hexists hrs
  obtain ⟨analysis', hanalysis'⟩ := hexists hrs'
  obtain ⟨-, -, hlevels, hflagged⟩ :=
    rendering_functions_are_flagged_beyond_their_limits Catalog.standard (by decide)
      (List.Subset.refl _) nestedUnit haccepted "nesting-depth" Check.nestingLimit .nesting _ rs hrs
      r hr hid
  obtain ⟨-, hmem, hanalysed⟩ := hflagged _ _ hlimited
  obtain ⟨hfindings, hraised⟩ := hanalysed _ hanalysis
  let body : Tree.Visit (Entry Kind) := ⟨nestedBody id, [nestedCard id]⟩
  have hbody : body ∈ Check.nestingLimit.flagged nestedUnit ["body"] 1 := by
    rw [hmem, (hlevels _).1]
    refine ⟨?_, ⟨rfl, ⟨"body", by decide, rfl⟩, ⟨_, rfl, rfl⟩⟩, by decide,
      isShort_of_natAbs_lt (by decide)⟩
    unfold Model.walk
    rw [Tree.walk_eq_visitsAmong]
    exact List.mem_of_getElem? (i := 1) rfl
  have hfinding := List.mem_map_of_mem (f := Check.nestingLimit.findingAt nestedUnit r) hbody
  rw [← hfindings] at hfinding
  obtain ⟨f, hf, hfound⟩ := List.mem_map.mp hfinding
  obtain ⟨hf, hfid⟩ := List.mem_filter.mp hf
  refine ⟨config, rs, analysis, config', rs', analysis', hrs, hrs', hanalysis, hanalysis',
    ⟨f, hf, of_decide_eq_true hfid, ?_⟩,
    hraised _ rs' r' 2 analysis' hrs' hr' hid' hlimited' (by decide) hanalysis'⟩
  cases hfound
  rfl

/-! ## Measures that cannot be written -/

section

variable {κ : Type} (kindOf : Kind → κ)

/-- A body that ends on a line with too many digits. -/
def endlessBody : Tree (Entry κ) :=
  .node ⟨kindOf .function, some "body", ⟨"Card", 1, 2, longInteger, 1⟩, [], []⟩ []

/-- The component that the body renders. -/
def endlessCard : Tree (Entry κ) :=
  .node ⟨kindOf .component, some "Card", ⟨"Card", 1, 1, longInteger, 2⟩, [], []⟩
    [endlessBody kindOf]

end

theorem checkRoots_endlessCard :
    Draft.checkRoots "Card" [endlessCard Kind.name] = .ok [endlessCard id] := by
  have hlong : (1 : Int) < longInteger := lt_longInteger (by decide : 1 < 10000)
  have hcontains : (endlessCard Kind.name).value.span.contains
      (endlessBody Kind.name).value.span = true := by
    rw [Span.contains_iff]
    exact ⟨rfl, Or.inr ⟨rfl, by decide⟩, Or.inr ⟨rfl, by decide⟩⟩
  have hbody : Draft.checkAll "Card" [endlessBody Kind.name] = .ok [endlessBody id] :=
    Draft.checkAll_cons_eq_ok_iff.mpr ⟨_, [], [], Entry.check_eq_ok_iff.mpr
      ⟨.function, rfl, rfl, rfl, Or.inl hlong, by simp, by simp⟩, rfl, rfl, rfl⟩
  exact Draft.checkAll_cons_eq_ok_iff.mpr ⟨_, _, [], Entry.check_eq_ok_iff.mpr
    ⟨.component, rfl, rfl, rfl, Or.inl hlong, fun c hc => List.mem_singleton.mp hc ▸ hcontains,
      .singleton _⟩, hbody, rfl, rfl⟩

/-- The body measures more than its limit, and is not flagged. -/
theorem endless_bodies_are_not_flagged :
    ∃ m, Model.ofDrafts "Card" [endlessCard Kind.name] [] [] = .ok m ∧
      ∃ config rs analysis, Catalog.standard.resolve config = .ok rs ∧
        (∃ r ∈ rs.rules, r.id = "body-size-limit" ∧ r.LimitedTo Check.sizeLimit ["body"] 50) ∧
        Analysis.ofModel m rs = .ok analysis ∧
        ⟨endlessBody id, [endlessCard id]⟩ ∈ Check.sizeLimit.exceeding m ["body"] 50 ∧
        ∀ f ∈ analysis.findings, f.ruleId ≠ "body-size-limit" := by
  let m := Model.ofForest "Card" [endlessCard id] [] []
  obtain ⟨config, rs, hrs, r, hr, hid, hlimited⟩ :=
    LimitedBy.bodySize.exists_resolve 50 (by decide)
  obtain ⟨hindexed, hrules⟩ := Catalog.of_resolve hrs
  have hshort : ∀ v ∈ m.walk, v.tree.span.isShort = true := by
    refine Model.isShort_of_near ?_
    simp only [m, Model.ofForest, endlessCard, endlessBody, Tree.visitsAmong, Tree.visits]
    decide
  obtain ⟨analysis, hanalysis⟩ := (Analysis.exists_ofModel_iff hindexed).mpr
    (Survey.recordable_of_short (fun r hr => (hrules r hr).1) hshort)
  have hmeasure : Check.sizeLimit.measure m (endlessBody id) = longInteger := by
    change longInteger - 1 + 1 = longInteger
    omega
  have hmore : (50 : Int) < longInteger := lt_longInteger (by decide : 50 < 10000)
  have hwalk : m.walk = [⟨endlessCard id, []⟩, ⟨endlessBody id, [endlessCard id]⟩] := by
    unfold Model.walk
    rw [Tree.walk_eq_visitsAmong]
    rfl
  have hflagged : Check.sizeLimit.flagged m ["body"] 50 = [] := by
    refine List.eq_nil_iff_forall_not_mem.mpr fun v hv => ?_
    obtain ⟨hv, hrenders, -, hwritten⟩ := (Check.RenderLimit.mem_flagged_iff _ _ _).mp hv
    rw [hwalk] at hv
    simp only [List.mem_cons, List.not_mem_nil, or_false] at hv
    rcases hv with rfl | rfl
    · exact absurd hrenders.function (by decide)
    · rw [hmeasure, isShort_longInteger] at hwritten
      cases hwritten
  refine ⟨m, Model.ofDrafts_eq_ok_iff.mpr ⟨_, checkRoots_endlessCard, rfl⟩, config, rs, analysis,
    hrs, ⟨r, hr, hid, hlimited⟩, hanalysis, ?_, fun f hf hfid => ?_⟩
  · rw [Check.RenderLimit.mem_exceeding_iff, hmeasure, hwalk]
    exact ⟨by simp, ⟨rfl, ⟨"body", by decide, rfl⟩, ⟨_, rfl, rfl⟩⟩, hmore⟩
  · rw [((Analysis.ofModel_eq_ok_iff hindexed).mp hanalysis).1] at hf
    have hids := Catalog.nodup_standard_ids
    have hfindings := Survey.findings_of_limit (m := m) (Catalog.nodup_ids_of_resolve hids hrs) hr
      (LimitedBy.bodySize.limits_of_resolve hids (List.Subset.refl _) hrs hr hid) hlimited
    rw [hflagged, List.map_nil, List.map_eq_nil_iff, List.filter_eq_nil_iff] at hfindings
    exact hfindings f hf (decide_eq_true (hfid.trans hid.symm))

end ComponentLint

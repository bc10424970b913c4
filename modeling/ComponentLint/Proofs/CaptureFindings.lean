-- What is reported about captures. A closure can be at fault for several of its
-- owner names, and closures inside of one another can have one span; a report
-- holds one finding for each rule and span. So of the captures at a span the
-- first one is reported, that of the first name at the outermost closure.
import ComponentLint.Proofs.CheckScope
import ComponentLint.Proofs.InnermostNode
import ComponentLint.Proofs.ReportContents
import ComponentLint.Proofs.ResolvedRules
import ComponentLint.Proofs.RulePasses

namespace ComponentLint

/-! ## The first finding at a span -/

namespace Report

theorem listing_nil (findings : List Finding) (rules : Option ActiveRules) :
    listing findings [] rules = firstOccurrences [] findings := by
  unfold listing idleNotes
  cases idleSeverity? rules <;> simp [idleAmong, reported]

/-- Without suppressions, a report holds of each rule and span the first finding and no other. -/
theorem filter_key_eq_singleton {m : Model} {rs : ActiveRules} (hindexed : rs.Indexed)
    {report : Report} (h : ofModel m rs = .ok report) (hplain : m.suppressions = [])
    {k : String × Span} {first : Finding}
    (hfirst : (Survey.ofModel m rs).findings.find? (fun f => f.key == k) = some first) :
    report.findings.filter (fun f => f.key = k) = [first] := by
  have hkey := key_of_find? hfirst
  obtain ⟨a, ha, h⟩ := ofModel_eq_ok_iff.mp h
  obtain ⟨-, hsort, -⟩ := aggregate_eq_ok_iff.mp h
  rw [hplain, listing_nil, ((Analysis.ofModel_eq_ok_iff hindexed).mp ha).1] at hsort
  obtain ⟨-, hsorted⟩ := Finding.sort_eq_ok_iff.mp hsort
  have hperm : report.findings.Perm (firstOccurrences [] (Survey.ofModel m rs).findings) := by
    rw [hsorted]
    exact List.mergeSort_perm _ _
  have hmem : first ∈ report.findings := by
    rw [hperm.mem_iff, mem_firstOccurrences_iff, hkey]
    exact ⟨List.not_mem_nil, hfirst⟩
  have hnodup : (report.findings.map Finding.key).Nodup :=
    (hperm.map _).nodup_iff.mpr (firstOccurrences_keys [] _).2
  rw [← hkey]
  exact filter_eq_singleton hnodup hmem

end Report

namespace ActiveRule

/-- The outermost of the nodes with a span at which a rule has findings: it is around the others. -/
structure OutermostAt (r : ActiveRule) (m : Model) (s : Span) (w : Tree.Visit (Entry Kind)) :
    Prop where
  mem : w ∈ m.walk
  inspected : r.inspects w.tree.kind = true
  span : w.tree.span = s
  finds : (r.survey m w).findings ≠ []
  around : ∀ u ∈ m.walk, r.inspects u.tree.kind = true → u.tree.span = s →
    (r.survey m u).findings ≠ [] → u = w ∨ w.tree ∈ u.ancestors

/-- A node with findings is the outermost one at its span if no node around it is. -/
theorem OutermostAt.eq_self {r : ActiveRule} {m : Model} {v w : Tree.Visit (Entry Kind)}
    (hw : r.OutermostAt m v.tree.span w) (hv : v ∈ m.walk)
    (hinspected : r.inspects v.tree.kind = true) (hfinds : (r.survey m v).findings ≠ [])
    (hinside : ∀ u ∈ m.walk, u.tree ∈ v.ancestors → r.inspects u.tree.kind = true →
      u.tree.span = v.tree.span → (r.survey m u).findings = []) : w = v := by
  rcases hw.around v hv hinspected rfl hfinds with hsame | hin
  · exact hsame.symm
  · exact absurd (hinside w hw.mem hin hw.inspected hw.span) hw.finds

/-- Whether a rule has findings at a node with a given span. -/
def findsAt (r : ActiveRule) (m : Model) (s : Span) (v : Tree.Visit (Entry Kind)) : Bool :=
  v.tree.span == s && !(r.survey m v).findings.isEmpty

theorem findsAt_iff {r : ActiveRule} {m : Model} {s : Span} {v : Tree.Visit (Entry Kind)} :
    r.findsAt m s v = true ↔ v.tree.span = s ∧ (r.survey m v).findings ≠ [] := by
  simp [findsAt]

section

variable {m : Model} {r : ActiveRule}
  (habout : ∀ u, ∀ f ∈ (r.survey m u).findings, f.key = (r.id, u.tree.span))
include habout

/-- Where nothing is found before a node with a span, the first finding there is the first one with
that span. -/
theorem find?_flatMap_of_first {s : Span} {before : List (Tree.Visit (Entry Kind))}
    {w : Tree.Visit (Entry Kind)} (after : List (Tree.Visit (Entry Kind)))
    (hbefore : ∀ u ∈ before, ¬ r.findsAt m s u = true) (hspan : w.tree.span = s)
    {first : Finding} {rest : List Finding}
    (hfirst : (r.survey m w).findings = first :: rest) :
    ((before ++ w :: after).flatMap fun u => (r.survey m u).findings).find?
      (fun f => f.key == (r.id, s)) = some first := by
  have hnone : (before.flatMap fun u => (r.survey m u).findings).find?
      (fun f => f.key == (r.id, s)) = none := by
    rw [List.find?_eq_none]
    intro f hf hkey
    obtain ⟨u, hu, hf⟩ := List.mem_flatMap.mp hf
    have hkey : (r.id, u.tree.span) = (r.id, s) := by
      rw [← habout u f hf]
      simpa using hkey
    exact hbefore u hu (findsAt_iff.mpr ⟨(Prod.mk.inj hkey).2, List.ne_nil_of_mem hf⟩)
  have hkey : first.key = (r.id, s) := by
    rw [← hspan]
    exact habout w first (hfirst ▸ List.mem_cons_self)
  rw [List.flatMap_append, List.find?_append, hnone, List.flatMap_cons, hfirst, Option.none_or,
    List.cons_append, List.find?_cons_of_pos (by simp [hkey])]

/-- The findings of a rule on entering, if they are about the nodes where they are made, start at a
span with those of the outermost node. -/
theorem exists_outermostAt (hm : m.Accepted) {rs : ActiveRules}
    (hids : (rs.rules.map ActiveRule.id).Nodup) (hr : r ∈ rs.rules)
    (henter : r.descriptor.phase = .enter) {v : Tree.Visit (Entry Kind)} (hv : v ∈ m.walk)
    (hinspected : r.inspects v.tree.kind = true) (hfinds : (r.survey m v).findings ≠ []) :
    ∃ w first rest, r.OutermostAt m v.tree.span w ∧ (r.survey m w).findings = first :: rest ∧
      (Survey.ofModel m rs).findings.find? (fun f => f.key == (r.id, v.tree.span)) =
        some first := by
  let visits := m.walk.filter fun u => r.inspects u.tree.kind
  have hvisits : ∀ {u}, u ∈ visits ↔ u ∈ m.walk ∧ r.inspects u.tree.kind = true :=
    List.mem_filter
  obtain ⟨w, hw⟩ : ∃ w, visits.find? (r.findsAt m v.tree.span) = some w := by
    rw [← Option.isSome_iff_exists, List.find?_isSome]
    exact ⟨v, hvisits.mpr ⟨hv, hinspected⟩, findsAt_iff.mpr ⟨rfl, hfinds⟩⟩
  obtain ⟨hfindsAt, before, after, hsplit, hbefore⟩ := List.find?_eq_some_iff_append.mp hw
  obtain ⟨hspan, hfound⟩ := findsAt_iff.mp hfindsAt
  obtain ⟨first, rest, hfirst⟩ := List.exists_cons_of_ne_nil hfound
  have hbefore : ∀ u ∈ before, ¬ r.findsAt m v.tree.span u = true := by simpa using hbefore
  have hmem := hvisits.mp (List.mem_of_find?_eq_some hw)
  refine ⟨w, first, rest, ⟨hmem.1, hmem.2, hspan, hfound, ?_⟩, hfirst, ?_⟩
  · intro u hu huinspected huspan hufinds
    have hchained : Tree.Chained (fun n : Node => decide (n.span = v.tree.span)) visits :=
      List.Pairwise.sublist List.filter_sublist (hm.chained_span v.tree.span)
    have hu := hvisits.mpr ⟨hu, huinspected⟩
    rw [hsplit] at hu hchained
    rcases List.mem_append.mp hu with hu | hu
    · exact absurd (findsAt_iff.mpr ⟨huspan, hufinds⟩) (hbefore u hu)
    · rcases List.mem_cons.mp hu with rfl | hu
      · exact Or.inl rfl
      · have hafter := (List.pairwise_append.mp hchained).2.1
        exact Or.inr (List.rel_of_pairwise_cons hafter hu (decide_eq_true hspan)
          (decide_eq_true huspan))
  · have hfindings := find?_flatMap_of_first habout after hbefore hspan hfirst
    rw [← hsplit] at hfindings
    rw [← hfindings, ← Survey.findings_of_enter hids hr henter, List.find?_filter]
    congr 1
    funext f
    by_cases hkey : f.key = (r.id, v.tree.span)
    · have hid : f.ruleId = r.id := (Prod.mk.inj hkey).1
      simp [hkey, hid]
    · simp [hkey]

end

end ActiveRule

/-! ## The captures of a closure -/

namespace Check

/-- What there is to say about the capture of an owner name. -/
def captured? (ctx : Context) (name : String) : Option Remark :=
  match ctx.component?.filter fun c => (c.attr "reference_type").truthy with
  | none => none
  | some component =>
    match readSet (ctx.node.attr "captures"), readMapping (ctx.node.attr "capture_list") with
    | .ok captures, .ok modes =>
      (captureRemarks ctx component.nameText captures modes name).toOption.bind List.head?
    | _, _ => none

/-- There is at most one remark on the capture of a name. -/
theorem eq_toList_of_captureRemarks {ctx : Context} {owner : String} {captures : List Value}
    {modes : List (Value × Value)} {name : String} {remarks : List Remark}
    (h : captureRemarks ctx owner captures modes name = .ok remarks) :
    remarks = remarks.head?.toList := by
  simp only [captureRemarks] at h
  split at h
  · cases h
    rfl
  · obtain ⟨mode, -, hremarks⟩ := bind_eq_ok_iff.mp h
    split at hremarks
    · cases hremarks
      split <;> rfl
    · cases hremarks
      split <;> rfl

/-- The remarks on the owner names of a closure, in their order. -/
theorem flatten_captureRemarks {ctx : Context} {owner : String} {captures : List Value}
    {modes : List (Value × Value)} {names : List String} {parts : List (List Remark)}
    (h : names.mapM (captureRemarks ctx owner captures modes) = .ok parts) :
    parts.flatten = names.filterMap fun name =>
      (captureRemarks ctx owner captures modes name).toOption.bind List.head? := by
  induction names generalizing parts with
  | nil =>
    cases h
    rfl
  | cons name names ih =>
    obtain ⟨part, rest, hpart, hrest, rfl⟩ := mapM_cons_eq_ok_iff.mp h
    rw [List.flatten_cons, ih hrest, List.filterMap_cons, hpart, eq_toList_of_captureRemarks hpart]
    cases part with
    | nil => rfl
    | cons remark others => rfl

/-- The remarks on a closure are those on its owner names, in their order, if the check does not
fail there. -/
theorem remarks_captureDiscipline {ctx : Context} (h : (captureDiscipline ctx).failure = none) :
    (captureDiscipline ctx).remarks = (ctx.names "ownerNames").filterMap (captured? ctx) := by
  have hremarks : _ = Except.ok (captureDiscipline ctx).remarks := eq_ok_of_completes h
  generalize (captureDiscipline ctx).remarks = remarks at hremarks ⊢
  unfold captured?
  cases hcomponent : ctx.component?.filter fun c => (c.attr "reference_type").truthy with
  | none =>
    rw [hcomponent] at hremarks
    cases hremarks
    simp
  | some component =>
    rw [hcomponent] at hremarks
    simp only [bind_eq_ok_iff] at hremarks
    obtain ⟨captures, hcaptures, modes, hmodes, parts, hparts, hflat⟩ := hremarks
    cases hflat
    simp only [hcaptures, hmodes]
    exact flatten_captureRemarks hparts

end Check

/-! ## The rule about captures -/

/-- The rule about captures. -/
def captureRule : Descriptor := standardRules.get ⟨3, by decide⟩

namespace ActiveRule

variable {r : ActiveRule} (hrule : r.descriptor = captureRule)
include hrule

/-- At a closure the rule has one finding for each owner name whose capture is at fault, if its
check does not fail there. -/
theorem findings_survey_capture (m : Model) {v : Tree.Visit (Entry Kind)}
    (hcompletes : (Check.captureDiscipline (r.contextAt m v)).failure = none) :
    (r.survey m v).findings = ((r.contextAt m v).names "ownerNames").filterMap
      fun name => (Check.captured? (r.contextAt m v) name).map r.finding := by
  have hcheck : r.descriptor.check = some Check.captureDiscipline := by
    rw [hrule]
    rfl
  rw [findings_survey hcheck hcompletes, Check.remarks_captureDiscipline hcompletes,
    List.map_filterMap]

/-- The first finding at a closure is the one for the first name that is at fault. -/
theorem first_of_capture {m : Model} {v : Tree.Visit (Entry Kind)}
    (hcompletes : (Check.captureDiscipline (r.contextAt m v)).failure = none)
    {name : String} {remark : Remark}
    (hremark : Check.captured? (r.contextAt m v) name = some remark) (before after : List String)
    (hnames : (r.contextAt m v).names "ownerNames" = before ++ name :: after)
    (hearlier : ∀ earlier ∈ before, Check.captured? (r.contextAt m v) earlier = none)
    {first : Finding} {rest : List Finding} (hfirst : (r.survey m v).findings = first :: rest) :
    first = r.finding remark := by
  have hnone : before.filterMap (fun name =>
      (Check.captured? (r.contextAt m v) name).map r.finding) = [] := by
    refine List.filterMap_eq_nil_iff.mpr fun earlier hmem => ?_
    rw [hearlier earlier hmem]
    rfl
  rw [findings_survey_capture hrule m hcompletes, hnames, List.filterMap_append, hnone,
    List.nil_append, List.filterMap_cons_some (by rw [hremark]; rfl)] at hfirst
  exact (List.cons.inj hfirst).1.symm

theorem key_of_mem_capture (m : Model) (v : Tree.Visit (Entry Kind)) :
    ∀ f ∈ (r.survey m v).findings, f.key = (r.id, v.tree.span) := by
  intro f hf
  obtain ⟨check, hcheck, remark, hremark, rfl⟩ := of_mem_survey hf
  rw [hrule] at hcheck
  cases hcheck
  exact congrArg (Prod.mk r.id) (Check.captureDiscipline_aboutNode _ remark hremark)

theorem inspects_iff_closure (kind : Kind) : r.inspects kind = true ↔ kind = .closure := by
  rw [inspects, hrule]
  simp [captureRule, standardRules]

end ActiveRule

theorem eq_captureRule {config : Configuration} {rs : ActiveRules}
    (hrs : Catalog.standard.resolve config = .ok rs) {r : ActiveRule} (hr : r ∈ rs.rules)
    (hid : r.id = "capture-discipline") : r.descriptor = captureRule := by
  exact List.inj_on_of_nodup_map Catalog.nodup_standard_ids ((Catalog.of_resolve hrs).2 r hr).1
    (List.get_mem _ _) hid

/-- A report without suppressions holds of the captures at the span of a closure the first one at
the outermost closure there. -/
theorem Report.exists_capture {m : Model} (hm : m.Accepted) (hplain : m.suppressions = [])
    {config : Configuration} {rs : ActiveRules}
    (hrs : Catalog.standard.resolve config = .ok rs) {r : ActiveRule} (hr : r ∈ rs.rules)
    (hid : r.id = "capture-discipline") {report : Report} (hreport : ofModel m rs = .ok report)
    {v : Tree.Visit (Entry Kind)} (hv : v ∈ m.walk) (hclosure : v.tree.kind = .closure)
    (hfinds : (r.survey m v).findings ≠ []) :
    ∃ w first rest, r.OutermostAt m v.tree.span w ∧ (r.survey m w).findings = first :: rest ∧
      report.findings.filter (fun f => f.key = ("capture-discipline", v.tree.span)) = [first] := by
  have hrule := eq_captureRule hrs hr hid
  have henter : r.descriptor.phase = .enter := by
    rw [hrule]
    rfl
  obtain ⟨w, first, rest, hw, hfirst, hfound⟩ :=
    ActiveRule.exists_outermostAt (ActiveRule.key_of_mem_capture hrule m) hm
      (Catalog.nodup_ids_of_resolve (by decide) hrs) hr henter hv
      ((ActiveRule.inspects_iff_closure hrule _).mpr hclosure) hfinds
  rw [hid] at hfound
  exact ⟨w, first, rest, hw, hfirst,
    filter_key_eq_singleton (Catalog.of_resolve hrs).1 hreport hplain hfound⟩

/-- Under a configuration of the standard catalog that resolves, the report on an accepted unit
without suppressions holds exactly one finding about captures at the span of each closure where the
check does not fail and finds one: the one for the first owner name at the outermost such closure
with that span. So the finding for an owner name is there unless an earlier name is at fault in the
same closure, or a closure around it has the same span and a finding of its own; and then there is
its message only if the first one says the same. -/
theorem captures_at_a_span_are_told_by_the_first (m : Model) (hm : m.Accepted)
    (hplain : m.suppressions = []) (config : Configuration) (rs : ActiveRules)
    (hrs : Catalog.standard.resolve config = .ok rs) (r : ActiveRule) (hr : r ∈ rs.rules)
    (hid : r.id = "capture-discipline") :
    (config.Ranked → ((∃ report, Report.ofModel m rs = .ok report) ↔ Report.Writable m rs)) ∧
    (∀ v, (Check.captureDiscipline (r.contextAt m v)).failure = none →
      (r.survey m v).findings = ((r.contextAt m v).names "ownerNames").filterMap
        fun name => (Check.captured? (r.contextAt m v) name).map r.finding) ∧
    ∀ report, Report.ofModel m rs = .ok report → ∀ v ∈ m.walk, v.tree.kind = .closure →
      (Check.captureDiscipline (r.contextAt m v)).failure = none →
      ∀ name ∈ (r.contextAt m v).names "ownerNames", ∀ remark,
        Check.captured? (r.contextAt m v) name = some remark →
        ∃ w first rest, r.OutermostAt m v.tree.span w ∧
          (r.survey m w).findings = first :: rest ∧
          report.findings.filter (fun f => f.key = ("capture-discipline", v.tree.span)) = [first] ∧
          ((∃ f ∈ report.findings, f.key = ("capture-discipline", v.tree.span) ∧
            f.message = remark.message) ↔ first.message = remark.message) ∧
          ∀ before after, (r.contextAt m v).names "ownerNames" = before ++ name :: after →
            (∀ earlier ∈ before, Check.captured? (r.contextAt m v) earlier = none) →
            (∀ u ∈ m.walk, u.tree ∈ v.ancestors → u.tree.kind = .closure →
              u.tree.span = v.tree.span → (r.survey m u).findings = []) →
            first = r.finding remark := by
  have hrule := eq_captureRule hrs hr hid
  refine ⟨?_, fun v => ActiveRule.findings_survey_capture hrule m, ?_⟩
  · intro hranked
    exact Report.exists_ofModel_iff (Catalog.of_resolve hrs).1
      (Catalog.isSome_severity_of_ranked hranked hrs) m
  · intro report hreport v hv hclosure hcompletes name hname remark hremark
    have hfinds : (r.survey m v).findings ≠ [] := by
      apply List.ne_nil_of_mem (a := r.finding remark)
      rw [ActiveRule.findings_survey_capture hrule m hcompletes]
      exact List.mem_filterMap.mpr ⟨name, hname, by rw [hremark]; rfl⟩
    obtain ⟨w, first, rest, hw, hfirst, hfilter⟩ :=
      Report.exists_capture hm hplain hrs hr hid hreport hv hclosure hfinds
    refine ⟨w, first, rest, hw, hfirst, hfilter, ?_, ?_⟩
    · have hmem : ∀ f, f ∈ report.findings ∧ f.key = ("capture-discipline", v.tree.span) ↔
          f = first := by
        intro f
        rw [← List.mem_singleton (a := f) (b := first), ← hfilter, List.mem_filter,
          decide_eq_true_iff]
      constructor
      · rintro ⟨f, hf, hkey, hmessage⟩
        rwa [← (hmem f).mp ⟨hf, hkey⟩]
      · intro hmessage
        obtain ⟨hf, hkey⟩ := (hmem first).mpr rfl
        exact ⟨first, hf, hkey, hmessage⟩
    · intro before after hnames hearlier hinside
      have hsame := hw.eq_self hv ((ActiveRule.inspects_iff_closure hrule _).mpr hclosure) hfinds
        fun u hu hin hinspected => hinside u hu hin
          ((ActiveRule.inspects_iff_closure hrule _).mp hinspected)
      subst hsame
      exact ActiveRule.first_of_capture hrule hcompletes hremark before after hnames hearlier hfirst

/-! ## Two owners -/

section

variable {κ : Type} (kindOf : Kind → κ)

/-- An escaping closure that captures two names. -/
def ownersClosure : Tree (Entry κ) :=
  .node ⟨kindOf .closure, none, ⟨"A", 2, 1, 8, 1⟩, [],
    [("escaping", .bool true), ("captures", .tuple [.str "self", .str "model"])]⟩ []

/-- The closure in a component that is referred to. -/
def ownersComponent : Tree (Entry κ) :=
  .node ⟨kindOf .component, some "ProfileModel", ⟨"A", 1, 1, 9, 1⟩, [],
    [("reference_type", .bool true)]⟩ [ownersClosure kindOf]

end

/-- The component as a unit. -/
def ownersUnit : Model := .ofForest "A" [ownersComponent id] [] []

/-- The closure as it is met in the unit. -/
def ownersVisit : Tree.Visit (Entry Kind) := ⟨ownersClosure id, [ownersComponent id]⟩

/-- Both names are owners. -/
def twoOwners : Configuration :=
  { rules := [("capture-discipline",
      { params := [("ownerNames", .list [.str "self", .str "model"])] })] }

theorem ownersUnit_accepted : ownersUnit.Accepted := by
  have hmade : Model.ofDrafts "A" [ownersComponent Kind.name] [] [] = .ok ownersUnit :=
    Model.ofDrafts_eq_ok_iff.mpr ⟨_, rfl, rfl⟩
  exact Model.accepted_of_ofDrafts hmade

theorem ownersVisit_mem_walk : ownersVisit ∈ ownersUnit.walk := by
  unfold Model.walk
  rw [Tree.walk_eq_visitsAmong]
  exact List.mem_of_getElem? (i := 1) rfl

theorem ownersVisit_alone : ∀ n ∈ ownersVisit.ancestors, n.kind ≠ .closure := by
  intro n hn
  rw [List.mem_singleton.mp hn]
  decide

theorem twoOwners_ranked : twoOwners.Ranked := by
  intro e he s hs
  cases List.mem_singleton.mp he
  cases hs

theorem ownersUnit_writable {config : Configuration} {rs : ActiveRules}
    (hrs : Catalog.standard.resolve config = .ok rs) : Report.Writable ownersUnit rs := by
  have hshort : ∀ v ∈ ownersUnit.walk, v.tree.span.isShort = true :=
    Model.isShort_of_near (by decide)
  refine ⟨Survey.recordable_of_short (fun r hr => ((Catalog.of_resolve hrs).2 r hr).1) hshort, ?_⟩
  exact List.forall_mem_nil _

theorem exists_twoOwners :
    ∃ rs, Catalog.standard.resolve twoOwners = .ok rs ∧ ∃ r ∈ rs.rules,
      r.id = "capture-discipline" ∧ r.params = [("ownerNames", namesValue ["self", "model"])] := by
  have hcoerce : captureRule.coerce "ownerNames" (.list [.str "self", .str "model"]) =
      .ok (namesValue ["self", "model"]) := rfl
  obtain ⟨rs, hrs, hr⟩ := Catalog.exists_resolve_of_setting (c := Catalog.standard) (by decide)
    (List.get_mem _ _) none rfl hcoerce
  exact ⟨rs, hrs, _, hr, rfl, rfl⟩

/-- What is said of a name that is captured strongly. -/
def strongCapture (name : String) : Remark :=
  ⟨⟨"A", 2, 1, 8, 1⟩, "Escaping closure in 'ProfileModel' captures '" ++ name ++
    "' strongly and can keep its owner alive",
    some ("Capture '[weak " ++ name ++ "]' or '[unowned " ++ name ++ "]' instead.")⟩

/-- Both names are at fault. -/
theorem captured?_ownersVisit {r : ActiveRule}
    (hparams : r.params = [("ownerNames", namesValue ["self", "model"])]) :
    (r.contextAt ownersUnit ownersVisit).names "ownerNames" = ["self", "model"] ∧
      (Check.captureDiscipline (r.contextAt ownersUnit ownersVisit)).failure = none ∧
      ∀ name ∈ ["self", "model"],
        Check.captured? (r.contextAt ownersUnit ownersVisit) name = some (strongCapture name) := by
  unfold ActiveRule.contextAt
  rw [hparams]
  refine ⟨rfl, rfl, ?_⟩
  intro name hname
  rcases List.mem_cons.mp hname with rfl | hname
  · rfl
  · cases List.mem_singleton.mp hname
    rfl

theorem ownersUnit_is_told_by_its_first_name :
    ∃ rs, Catalog.standard.resolve twoOwners = .ok rs ∧ ∃ r ∈ rs.rules,
      r.id = "capture-discipline" ∧ ∃ report, Report.ofModel ownersUnit rs = .ok report ∧
        report.findings.filter (fun f => f.key = ("capture-discipline", ⟨"A", 2, 1, 8, 1⟩)) =
          [r.finding (strongCapture "self")] := by
  obtain ⟨rs, hrs, r, hr, hid, hparams⟩ := exists_twoOwners
  obtain ⟨hnames, hcompletes, hcaptured⟩ := captured?_ownersVisit hparams
  obtain ⟨hreports, -, htold⟩ := captures_at_a_span_are_told_by_the_first ownersUnit
    ownersUnit_accepted rfl twoOwners rs hrs r hr hid
  obtain ⟨report, hreport⟩ := (hreports twoOwners_ranked).mpr (ownersUnit_writable hrs)
  obtain ⟨w, first, rest, -, -, hfilter, -, hfirst⟩ := htold report hreport ownersVisit
    ownersVisit_mem_walk rfl hcompletes "self" (by rw [hnames]; decide) _
    (hcaptured "self" (by decide))
  rw [hfirst [] ["model"] hnames (by simp)
    fun u _ hin hclosure => absurd hclosure (ownersVisit_alone u.tree hin)] at hfilter
  exact ⟨rs, hrs, r, hr, hid, report, hreport, hfilter⟩

-- Two names are captured at one span, and the report has room for one of them there.
theorem captures_of_later_names_are_lost :
    ¬ ∀ (m : Model), m.Accepted → m.suppressions = [] →
      ∀ (config : Configuration) (rs : ActiveRules), Catalog.standard.resolve config = .ok rs →
      ∀ r ∈ rs.rules, r.id = "capture-discipline" →
      ∀ report, Report.ofModel m rs = .ok report → ∀ v ∈ m.walk, v.tree.kind = .closure →
      ∀ name ∈ (r.contextAt m v).names "ownerNames", ∀ remark,
        Check.captured? (r.contextAt m v) name = some remark →
        ∃ f ∈ report.findings, f.ruleId = "capture-discipline" ∧ f.span = v.tree.span ∧
          f.message = remark.message := by
  intro h
  obtain ⟨rs, hrs, r, hr, hid, hparams⟩ := exists_twoOwners
  obtain ⟨hnames, hcompletes, hcaptured⟩ := captured?_ownersVisit hparams
  have hrule := eq_captureRule hrs hr hid
  obtain ⟨report, hreport⟩ := (Report.exists_ofModel_iff (Catalog.of_resolve hrs).1
    (Catalog.isSome_severity_of_ranked twoOwners_ranked hrs) ownersUnit).mpr
    (ownersUnit_writable hrs)
  have hself := hcaptured "self" (by decide)
  have hfinds : (r.survey ownersUnit ownersVisit).findings ≠ [] := by
    rw [ActiveRule.findings_survey_capture hrule _ hcompletes, hnames,
      List.filterMap_cons_some (by rw [hself]; rfl)]
    exact List.cons_ne_nil _ _
  obtain ⟨w, first, rest, hw, hfirst, hfilter⟩ := Report.exists_capture ownersUnit_accepted rfl hrs
    hr hid hreport ownersVisit_mem_walk rfl hfinds
  have hsame := hw.eq_self ownersVisit_mem_walk
    ((ActiveRule.inspects_iff_closure hrule _).mpr rfl) hfinds
    fun u _ hin hinspected => absurd ((ActiveRule.inspects_iff_closure hrule _).mp hinspected)
      (ownersVisit_alone u.tree hin)
  subst hsame
  have hfirst :=
    ActiveRule.first_of_capture hrule hcompletes hself [] ["model"] hnames (by simp) hfirst
  obtain ⟨f, hf, hruleId, hspan, hmessage⟩ := h ownersUnit ownersUnit_accepted rfl twoOwners rs hrs
    r hr hid report hreport ownersVisit ownersVisit_mem_walk rfl "model" (by rw [hnames]; decide) _
    (hcaptured "model" (by decide))
  have hmem : f ∈ [first] := by
    rw [← hfilter, List.mem_filter]
    exact ⟨hf, by simp [Finding.key, hruleId, hspan]⟩
  rw [List.mem_singleton.mp hmem, hfirst] at hmessage
  have hdistinct : (strongCapture "self").message ≠ (strongCapture "model").message := by decide
  exact hdistinct hmessage

end ComponentLint

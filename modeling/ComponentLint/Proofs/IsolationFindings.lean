-- What is found about isolation. A function or closure strays when it runs in
-- another domain than the isolated component around it, as far as the domains
-- can be written. There the first use of
-- each name of the component's state is reported, and nothing anywhere else;
-- no use is in the context of two functions or closures, so none is reported
-- twice.
import ComponentLint.Proofs.DomainNames
import ComponentLint.Proofs.InnermostNode
import ComponentLint.Proofs.RulePasses

namespace ComponentLint

/-! ## The first use of each name -/

namespace Check

/-- The first of some uses for each of some names, in the order of the uses. -/
structure FirstOfEachName (names : List String) (uses firsts : List (Tree.Visit (Entry Kind))) :
    Prop where
  inOrder : firsts.Sublist uses
  first : ∀ name, firsts.filter (fun u => usedName u.tree == name) =
    if name ∈ names then (uses.find? fun u => usedName u.tree == name).toList else []

/-- The search for uses that has already seen some names finds the first uses of the others. -/
theorem exists_firstUses (names seen : List String) (uses : List (Tree.Visit (Entry Kind))) :
    ∃ firsts : List (Tree.Visit (Entry Kind)), firsts.Sublist uses ∧
      (∀ name, firsts.filter (fun u => usedName u.tree == name) =
        if name ∈ names ∧ name ∉ seen then
          (uses.find? fun u => usedName u.tree == name).toList else []) ∧
      firstUses names seen (uses.map Tree.Visit.tree) =
        firsts.map fun u => (usedName u.tree, u.tree) := by
  induction uses generalizing seen with
  | nil => exact ⟨[], List.Sublist.refl _, by simp, rfl⟩
  | cons u rest ih =>
    have hstep : firstUses names seen ((u :: rest).map Tree.Visit.tree) =
        if names.contains (usedName u.tree) && !seen.contains (usedName u.tree) then
          (usedName u.tree, u.tree) ::
            firstUses names (usedName u.tree :: seen) (rest.map Tree.Visit.tree)
        else firstUses names seen (rest.map Tree.Visit.tree) := rfl
    rw [hstep]
    by_cases hnew : usedName u.tree ∈ names ∧ usedName u.tree ∉ seen
    · obtain ⟨firsts, hsub, hfirst, huses⟩ := ih (usedName u.tree :: seen)
      refine ⟨u :: firsts, hsub.cons_cons u, fun name => ?_, ?_⟩
      · rw [List.filter_cons, List.find?_cons, hfirst]
        by_cases hname : usedName u.tree = name
        · subst hname
          simp [hnew]
        · rw [beq_false_of_ne hname]
          simp [Ne.symm hname]
      · rw [if_pos (by simp [hnew]), huses, List.map_cons]
    · obtain ⟨firsts, hsub, hfirst, huses⟩ := ih seen
      refine ⟨firsts, hsub.cons u, fun name => ?_, ?_⟩
      · rw [List.find?_cons, hfirst]
        by_cases hname : usedName u.tree = name
        · subst hname
          rw [if_neg hnew, if_neg hnew]
        · rw [beq_false_of_ne hname]
      · rw [if_neg (by simpa using hnew), huses]

theorem FirstOfEachName.nodup {names : List String} {uses firsts : List (Tree.Visit (Entry Kind))}
    (h : FirstOfEachName names uses firsts) : (firsts.map Tree.Visit.tree).Nodup := by
  have hnames : (firsts.map fun u => usedName u.tree).Nodup := by
    rw [List.nodup_iff_count_le_one]
    intro name
    rw [List.count, List.countP_map, List.countP_eq_length_filter]
    change (firsts.filter fun u => usedName u.tree == name).length ≤ 1
    rw [h.first name]
    split
    · exact Option.length_toList_le
    · simp
  refine List.Nodup.of_map usedName ?_
  rwa [List.map_map]

/-! ## Functions and closures that stray -/

/-- On a path, one node with a property at most has no other such node after it. -/
theorem eq_of_last {P : Node → Prop} {as bs cs ds : List Node} {a c : Node} (ha : P a) (hc : P c)
    (hbs : ∀ n ∈ bs, ¬ P n) (hds : ∀ n ∈ ds, ¬ P n) (h : as ++ a :: bs = cs ++ c :: ds) :
    a = c ∧ bs = ds := by
  rcases List.append_eq_append_iff.mp h with ⟨rest, -, hrest⟩ | ⟨rest, -, hrest⟩
  · rcases rest with _ | ⟨first, rest⟩
    · exact List.cons.inj hrest
    · obtain ⟨-, rfl⟩ := List.cons.inj hrest
      exact absurd hc (hbs c (by simp))
  · rcases rest with _ | ⟨first, rest⟩
    · exact (List.cons.inj hrest).imp Eq.symm Eq.symm
    · obtain ⟨-, rfl⟩ := List.cons.inj hrest
      exact absurd ha (hds a (by simp))

theorem Nearest.unique {v : Tree.Visit (Entry Kind)} {component component' : Node}
    {between between' : List Node} (h : Nearest v component between)
    (h' : Nearest v component' between') : component = component' ∧ between = between' := by
  obtain ⟨outside, hpath⟩ := h.path
  obtain ⟨outside', hpath'⟩ := h'.path
  exact eq_of_last (P := fun n => n.kind = .component) h.component h'.component h.nearest
    h'.nearest (hpath.symm.trans hpath')

/-- A function or closure on a walk that runs in another domain than the isolated component around
it. -/
structure Strays (isolating : List String) (v : Tree.Visit (Entry Kind)) (component : Node)
    (between : List Node) (home domain : String) : Prop where
  around : Nearest v component between
  declares : ownDomain? component isolating = .ok (some home)
  isolated : home ≠ nonisolated
  runs : domainBelow? isolating between v.tree = .ok (some domain)
  elsewhere : domain ≠ home
  exempt : domain ≠ nonisolated

theorem Strays.unique {isolating : List String} {v : Tree.Visit (Entry Kind)}
    {component component' : Node} {between between' : List Node}
    {home home' domain domain' : String} (h : Strays isolating v component between home domain)
    (h' : Strays isolating v component' between' home' domain') :
    component = component' ∧ home = home' ∧ domain = domain' := by
  obtain ⟨rfl, rfl⟩ := h.around.unique h'.around
  have hhome := h.declares.symm.trans h'.declares
  have hdomain := h.runs.symm.trans h'.runs
  cases hhome
  cases hdomain
  exact ⟨rfl, rfl, rfl⟩

section

variable {v : Tree.Visit (Entry Kind)} (hruns : Runs v.tree) {m : Model} {params : Entries Value}
include hruns

/-- To stray is to run elsewhere, in a domain that has a name. -/
theorem Strays.elsewhere_iff {component : Node} {home : String} {domain : Option String} :
    Elsewhere ⟨v.tree, v.ancestors, m, params⟩ component home domain ↔
      ∃ between name, domain = some name ∧
        Strays (isolating ⟨v.tree, v.ancestors, m, params⟩) v component between home name := by
  constructor
  · rintro ⟨haround, hdeclares, hisolated, hdomain, hother, hexempt⟩
    obtain ⟨outside, between, hpath, hkind, hnearest⟩ := Context.component?_eq_some_iff.mp haround
    have haround : Nearest v component between := ⟨⟨outside, hpath⟩, hkind, hnearest⟩
    rw [haround.effectiveDomain?_eq hruns hdeclares m params] at hdomain
    obtain ⟨below, hbelow, hdomain⟩ := bind_eq_ok_iff.mp hdomain
    cases hdomain
    cases below with
    | none => exact absurd rfl hother
    | some name =>
      refine ⟨between, name, rfl, haround, hdeclares, hisolated, hbelow, ?_, ?_⟩
      · simpa using hother
      · simpa using hexempt
  · rintro ⟨between, name, rfl, h⟩
    obtain ⟨outside, hpath⟩ := h.around.path
    have hdomain := h.around.effectiveDomain?_eq hruns h.declares m params
    rw [h.runs] at hdomain
    refine ⟨?_, h.declares, h.isolated, hdomain, ?_, ?_⟩
    · exact Context.component?_eq_some_iff.mpr
        ⟨outside, between, hpath, h.around.component, h.around.nearest⟩
    · simpa using h.elsewhere
    · simpa using h.exempt

/-- Where a function or closure strays, the remarks are about the uses of the state. -/
theorem Strays.remarks_eq {component : Node} {between : List Node} {home domain : String}
    (h : Strays (isolating ⟨v.tree, v.ancestors, m, params⟩) v component between home domain) :
    (isolation ⟨v.tree, v.ancestors, m, params⟩).remarks =
      (firstUses (stateNames component
          (Context.names ⟨v.tree, v.ancestors, m, params⟩ "stateAnnotations")) []
        ((ownUses home v.tree.children).map Tree.Visit.tree)).map
        (isolationRemark ⟨v.tree, v.ancestors, m, params⟩ component home (some domain)) := by
  have helsewhere : Elsewhere ⟨v.tree, v.ancestors, m, params⟩ component home (some domain) :=
    (elsewhere_iff hruns).mpr ⟨between, domain, rfl, h⟩
  rw [helsewhere.isolation_eq, identifiersAmong_eq]

/-- Where none strays, there are no remarks. -/
theorem remarks_eq_nil
    (h : ∀ component between home domain,
      ¬ Strays (isolating ⟨v.tree, v.ancestors, m, params⟩) v component between home domain) :
    (isolation ⟨v.tree, v.ancestors, m, params⟩).remarks = [] := by
  rw [List.eq_nil_iff_forall_not_mem]
  intro remark hremark
  obtain ⟨component, home, domain, helsewhere⟩ := exists_elsewhere_of_mem hremark
  obtain ⟨between, name, -, hstrays⟩ := (Strays.elsewhere_iff hruns).mp helsewhere
  exact h component between home name hstrays

end

/-- The remark on a use from a domain ends with the name of the domain. -/
theorem message_isolationRemark (ctx : Context) (component : Node) (home : String)
    (use : String × Node) {domain : String} (h : domain ≠ "") :
    ∃ said, (isolationRemark ctx component home (some domain) use).message =
      said ++ " running on " ++ domain := by
  have hnamed : (some domain).filter (fun name => !name.isEmpty) = some domain := by
    simp [Option.filter, h]
  refine ⟨s!"'{use.1}' belongs to {home}-isolated '{component.nameText}' but is "
    ++ s!"accessed from {label ctx.node}", ?_⟩
  simp only [isolationRemark, hnamed, Option.getD_some, String.append_assoc]
  rfl

/-! ## No use in two contexts -/

theorem of_mem_ownUses {home : String} {ts : List Node} {u : Tree.Visit (Entry Kind)}
    (h : u ∈ ownUses home ts) : u ∈ Tree.visitsAmong [] ts ∧ ∀ n ∈ u.ancestors, ¬ Runs n := by
  obtain ⟨hvisit, hstays⟩ := List.mem_filter.mp h
  refine ⟨hvisit, fun n hn hruns => ?_⟩
  rw [staysIn, Bool.and_eq_true, List.all_eq_true] at hstays
  have hleaves := hstays.2 n (List.mem_append_left _ hn)
  rcases hruns with hkind | hkind
  · simp [leavesContext, show n.value.kind = .function from hkind] at hleaves
  · simp [leavesContext, show n.value.kind = .closure from hkind] at hleaves

/-- What one function or closure uses in its own context, no other one does. -/
theorem eq_of_mem_ownUses {m : Model} (hm : m.Accepted) {v w : Tree.Visit (Entry Kind)}
    (hv : v ∈ m.walk) (hw : w ∈ m.walk) (hvruns : Runs v.tree) (hwruns : Runs w.tree)
    {home home' : String} {x y : Tree.Visit (Entry Kind)}
    (hx : x ∈ ownUses home v.tree.children) (hy : y ∈ ownUses home' w.tree.children)
    (hxy : x.tree = y.tree) : v.tree = w.tree := by
  have hmem : ∀ v ∈ m.walk, ∀ x ∈ Tree.visitsAmong [] v.tree.children,
      x.within (v.ancestors ++ [v.tree]) ∈ m.walk := by
    unfold Model.walk
    rw [Tree.walk_eq_visitsAmong]
    intro v hv x hx
    refine Tree.mem_visits_of_below hv ?_
    rw [← List.append_nil (v.ancestors ++ [v.tree]), Tree.visitsAmong_append, List.append_nil]
    exact List.mem_map_of_mem hx
  obtain ⟨hx, hxruns⟩ := of_mem_ownUses hx
  obtain ⟨hy, hyruns⟩ := of_mem_ownUses hy
  have hsame := List.inj_on_of_nodup_map hm.nodup_trees (hmem v hv x hx) (hmem w hw y hy) hxy
  have hpath := congrArg Tree.Visit.ancestors hsame
  simp only [Tree.Visit.within, List.append_assoc, List.singleton_append] at hpath
  exact (eq_of_last hvruns hwruns hxruns hyruns hpath).1

end Check

/-! ## Reports -/

namespace ActiveRule

/-- Whether a function or closure strays in the eyes of a rule. -/
def SeesStray (r : ActiveRule) (m : Model) (v : Tree.Visit (Entry Kind)) (component : Node)
    (between : List Node) (home domain : String) : Prop :=
  Check.Strays (Check.isolating (r.contextAt m v)) v component between home domain

/-- A rule that reports some uses at a function or closure: if it strays, the first use for each
name of the component's state, with the domain by its name; else none. -/
structure ReportsStrays (r : ActiveRule) (m : Model) (v : Tree.Visit (Entry Kind))
    (reported : List (Tree.Visit (Entry Kind))) : Prop where
  firsts : ∀ component between home domain, r.SeesStray m v component between home domain →
    Check.FirstOfEachName
      (Check.stateNames component ((r.contextAt m v).names "stateAnnotations"))
      (Check.ownUses home v.tree.children) reported
  findings : ∀ component between home domain, r.SeesStray m v component between home domain →
    (r.survey m v).findings = reported.map fun u => r.finding <|
      Check.isolationRemark (r.contextAt m v) component home (some domain)
        (Check.usedName u.tree, u.tree)
  named : ∀ component between home domain, r.SeesStray m v component between home domain →
    ∀ f ∈ (r.survey m v).findings, ∃ said, f.message = said ++ " running on " ++ domain
  otherwise : (∀ component between home domain, ¬ r.SeesStray m v component between home domain) →
    reported = [] ∧ (r.survey m v).findings = []

/-- A use that is reported is in the context of the function or closure. -/
theorem ReportsStrays.of_mem {r : ActiveRule} {m : Model} {v : Tree.Visit (Entry Kind)}
    {reported : List (Tree.Visit (Entry Kind))} (h : r.ReportsStrays m v reported) :
    (reported.map Tree.Visit.tree).Nodup ∧
      ∀ u ∈ reported, ∃ home, u ∈ Check.ownUses home v.tree.children := by
  by_cases hstrays : ∃ component between home domain, r.SeesStray m v component between home domain
  · obtain ⟨component, between, home, domain, hstray⟩ := hstrays
    have hfirsts := h.firsts _ _ _ _ hstray
    exact ⟨hfirsts.nodup, fun u hu => ⟨home, hfirsts.inOrder.subset hu⟩⟩
  · simp only [not_exists] at hstrays
    rw [(h.otherwise hstrays).1]
    simp

theorem exists_reportsStrays {config : Configuration} {rs : ActiveRules}
    (hrs : Catalog.standard.resolve config = .ok rs) {r : ActiveRule} (hr : r ∈ rs.rules)
    (hrule : r.descriptor = isolationRule) (m : Model) {v : Tree.Visit (Entry Kind)}
    (hruns : Check.Runs v.tree) : ∃ reported, r.ReportsStrays m v reported := by
  have hsurvey := r.findings_survey_isolation hrule m v
  by_cases hstrays : ∃ component between home domain, r.SeesStray m v component between home domain
  · obtain ⟨component, between, home, domain, hstray⟩ := hstrays
    have hnonempty := Check.domainAmong?_ne_empty
      (Catalog.empty_notMem_names hrs hr (r.contextAt m v) rfl _) hstray.runs
    obtain ⟨firsts, hsub, hfirst, huses⟩ := Check.exists_firstUses
      (Check.stateNames component ((r.contextAt m v).names "stateAnnotations")) []
      (Check.ownUses home v.tree.children)
    have hfindings : (r.survey m v).findings = firsts.map fun u => r.finding <|
        Check.isolationRemark (r.contextAt m v) component home (some domain)
          (Check.usedName u.tree, u.tree) := by
      rw [hsurvey, Check.Strays.remarks_eq hruns hstray]
      dsimp only [contextAt] at huses ⊢
      rw [huses, List.map_map, List.map_map]
      rfl
    refine ⟨firsts, ?_, ?_, ?_, fun hnone => absurd hstray (hnone _ _ _ _)⟩
    · intro component' between' home' domain' hstray'
      obtain ⟨rfl, rfl, -⟩ := hstray.unique hstray'
      exact ⟨hsub, by simpa using hfirst⟩
    · intro component' between' home' domain' hstray'
      obtain ⟨rfl, rfl, rfl⟩ := hstray.unique hstray'
      exact hfindings
    · intro component' between' home' domain' hstray' f hf
      obtain ⟨rfl, rfl, rfl⟩ := hstray.unique hstray'
      rw [hfindings] at hf
      obtain ⟨u, -, rfl⟩ := List.mem_map.mp hf
      exact Check.message_isolationRemark _ _ _ _ hnonempty
  · have hnone : ∀ component between home domain,
        ¬ r.SeesStray m v component between home domain := by simpa using hstrays
    refine ⟨[], ?_, ?_, ?_, fun _ => ⟨rfl, ?_⟩⟩
    · exact fun _ _ _ _ hstray => absurd hstray (hnone _ _ _ _)
    · exact fun _ _ _ _ hstray => absurd hstray (hnone _ _ _ _)
    · exact fun _ _ _ _ hstray => absurd hstray (hnone _ _ _ _)
    · rw [hsurvey, Check.remarks_eq_nil hruns hnone]
      rfl

end ActiveRule

/-- Under a configuration that resolves, the rule about isolation reports at each function and
closure of an accepted unit the first uses of state if it strays, and nothing if it does not. What
runs inside of an isolated component has its domain from there or from below. There is an analysis
as long as every failure can be put on record; its findings are those at one function or closure
after the other, and no identifier is reported twice. -/
theorem isolation_reports_the_first_stray_uses (m : Model) (hm : m.Accepted)
    (config : Configuration) (rs : ActiveRules)
    (hrs : Catalog.standard.resolve config = .ok rs) (r : ActiveRule) (hr : r ∈ rs.rules)
    (hid : r.id = "isolation-consistency") :
    ((∃ analysis, Analysis.ofModel m rs = .ok analysis) ↔
      ∀ f ∈ (Survey.ofModel m rs).failures, f.Recordable) ∧
    ∃ reported : Tree.Visit (Entry Kind) → List (Tree.Visit (Entry Kind)),
      (∀ v ∈ m.walk, Check.Runs v.tree → r.ReportsStrays m v (reported v)) ∧
      (∀ v ∈ m.walk, Check.Runs v.tree → ∀ component between home,
        Check.Nearest v component between →
        Check.ownDomain? component (Check.isolating (r.contextAt m v)) = .ok (some home) →
        Check.effectiveDomain? (r.contextAt m v) (Check.isolating (r.contextAt m v)) =
          (Check.domainBelow? (Check.isolating (r.contextAt m v)) between v.tree).map
            fun domain => some (domain.getD home)) ∧
      (∀ analysis, Analysis.ofModel m rs = .ok analysis →
        analysis.findings.filter (fun f => f.ruleId = "isolation-consistency") =
          (m.walk.filter fun v => Check.Runs v.tree).flatMap
            (fun v => (r.survey m v).findings)) ∧
      (((m.walk.filter fun v => Check.Runs v.tree).flatMap reported).map
        Tree.Visit.tree).Nodup := by
  obtain ⟨hindexed, hrules⟩ := Catalog.of_resolve hrs
  have hrule := eq_isolationRule (hrules r hr).1 hid
  have hexists : ∀ v : Tree.Visit (Entry Kind), Check.Runs v.tree →
      ∃ reported, r.ReportsStrays m v reported :=
    fun v hruns => r.exists_reportsStrays hrs hr hrule m hruns
  choose! reported hreported using hexists
  refine ⟨Analysis.exists_ofModel_iff hindexed, reported, fun v _ hruns => hreported v hruns,
    ?_, ?_, ?_⟩
  · intro v _ hruns component between home haround hhome
    exact haround.effectiveDomain?_eq hruns hhome m r.params
  · intro analysis hanalysis
    have hids : (Catalog.standard.descriptors.map Descriptor.id).Nodup := by decide
    have henter : r.descriptor.phase = .enter := by
      rw [hrule]
      rfl
    rw [((Analysis.ofModel_eq_ok_iff hindexed).mp hanalysis).1, ← hid,
      Survey.findings_of_enter (Catalog.nodup_ids_of_resolve hids hrs) hr henter]
    congr 1
    refine List.filter_congr fun v _ => ?_
    rw [Bool.eq_iff_iff, decide_eq_true_iff]
    exact ActiveRule.inspects_iff_runs hrule v
  · rw [List.map_flatMap, List.nodup_flatMap]
    constructor
    · intro v hv
      have hruns := of_decide_eq_true (List.mem_filter.mp hv).2
      exact (hreported v hruns).of_mem.1
    · refine ((List.pairwise_map.mp hm.nodup_trees).filter _).imp_of_mem ?_
      intro v w hv hw hne t ht ht'
      obtain ⟨hv, hvruns⟩ := List.mem_filter.mp hv
      obtain ⟨hw, hwruns⟩ := List.mem_filter.mp hw
      obtain ⟨x, hx, rfl⟩ := List.mem_map.mp ht
      obtain ⟨y, hy, hxy⟩ := List.mem_map.mp ht'
      obtain ⟨home, hx⟩ := (hreported v (of_decide_eq_true hvruns)).of_mem.2 x hx
      obtain ⟨home', hy⟩ := (hreported w (of_decide_eq_true hwruns)).of_mem.2 y hy
      exact hne (Check.eq_of_mem_ownUses hm hv hw (of_decide_eq_true hvruns)
        (of_decide_eq_true hwruns) hx hy hxy.symm)

theorem counterUnit_reports_its_stray_closure :
    ∃ config rs, Catalog.standard.resolve config = .ok rs ∧
      ∃ r ∈ rs.rules, r.id = "isolation-consistency" ∧
        r.SeesStray counterUnit counterAccess.siteVisit (counterView id)
          [loadFunction id, runHop id] "MainActor" "global" ∧
        ∃ f ∈ (r.survey counterUnit counterAccess.siteVisit).findings,
          f.span = ⟨"A", 6, 1, 6, 5⟩ ∧ ∃ said, f.message = said ++ " running on " ++ "global" := by
  obtain ⟨config, rs, -, hrs, r, hr, hrule, hbound⟩ := exists_isolationRule_bound
  have hid : r.id = "isolation-consistency" := congrArg Descriptor.id hrule
  have haccess := counterAccess_reported hrule hbound
  have hstray : r.SeesStray counterUnit counterAccess.siteVisit (counterView id)
      [loadFunction id, runHop id] "MainActor" "global" := by
    refine ⟨⟨⟨[], rfl⟩, rfl, haccess.nearest⟩, haccess.home_eq, by decide, ?_, by decide, by decide⟩
    change Check.domainBelow? (counterAccess.isolating r counterUnit) _ _ = _
    rw [counterAccess_isolating hrule hbound]
    rfl
  obtain ⟨-, reported, hreported, -⟩ := isolation_reports_the_first_stray_uses counterUnit
    counterUnit_accepted config rs hrs r hr hid
  have hreports := hreported _ counterAccess_mem_walk haccess.runs
  -- the use of the state is the first one of its name
  have huse : counterAccess.use ∈ reported counterAccess.siteVisit := by
    have hfirst := (hreports.firsts _ _ _ _ hstray).first (Check.usedName counterAccess.use.tree)
    have hfound : (Check.ownUses "MainActor" counterAccess.siteVisit.tree.children).find?
        (fun u => Check.usedName u.tree == Check.usedName counterAccess.use.tree) =
      some counterAccess.use := haccess.first
    have hstate : Check.usedName counterAccess.use.tree ∈ Check.stateNames (counterView id)
      ((r.contextAt counterUnit counterAccess.siteVisit).names "stateAnnotations") := haccess.state
    rw [if_pos hstate, hfound] at hfirst
    have hmem : counterAccess.use ∈ (some counterAccess.use).toList := List.mem_cons_self
    rw [← hfirst] at hmem
    exact (List.mem_filter.mp hmem).1
  have hfinding := List.mem_map_of_mem (f := fun u => r.finding <|
    Check.isolationRemark (r.contextAt counterUnit counterAccess.siteVisit) (counterView id)
      "MainActor" (some "global") (Check.usedName u.tree, u.tree)) huse
  rw [← hreports.findings _ _ _ _ hstray] at hfinding
  exact ⟨config, rs, hrs, r, hr, hid, hstray, _, hfinding, rfl,
    hreports.named _ _ _ _ hstray _ hfinding⟩

/-! ## A domain that cannot be written -/

section

variable {κ : Type} (kindOf : Kind → κ)

/-- A function that uses `count` and is isolated to a number that is too long. -/
def farFunction : Tree (Entry κ) :=
  .node ⟨kindOf .function, some "load", ⟨"A", 3, 1, 5, 1⟩, [],
      [("isolation", .int Number.longInteger)]⟩
    [.node ⟨kindOf .identifier, some "count", ⟨"A", 4, 1, 4, 5⟩, [], []⟩ []]

/-- The function in a component of the main actor with a state `count`. -/
def farView : Tree (Entry κ) :=
  .node ⟨kindOf .component, some "CounterView", ⟨"A", 1, 1, 12, 1⟩, [("MainActor", [])], []⟩
    [.node ⟨kindOf .property, some "count", ⟨"A", 2, 1, 2, 9⟩, [("State", [])], []⟩ [],
     farFunction kindOf]

end

theorem truthy_longInteger : (Value.int Number.longInteger).truthy = true := by
  have hpos : (0 : Int) < Number.longInteger := Number.lt_longInteger (by decide : 0 < 10000)
  exact bne_iff_ne.mpr (by omega)

theorem ownDomain?_farFunction (isolating : List String) :
    Check.ownDomain? (farFunction id) isolating = .error .longInteger := by
  have hattr : (farFunction id).attr "isolation" = .int Number.longInteger := rfl
  have htext : Check.plainText (.int Number.longInteger) = .error .longInteger := by
    rw [Check.plainText, Value.toText_eq, Value.writable, Value.writableIn,
      Number.isShort_longInteger]
    rfl
  have hannotation : (farFunction id).value.firstAnnotation? isolating = none := rfl
  unfold Check.ownDomain?
  rw [if_neg (by decide), hannotation, hattr]
  dsimp only
  rw [if_pos truthy_longInteger, htext]
  rfl

/-- The function declares a domain and uses the state in its own context, and is not reported. -/
theorem far_domains_are_not_reported :
    ∃ m, Model.ofDrafts "A" [farView Kind.name] [] [] = .ok m ∧
      ∃ config rs analysis, Catalog.standard.resolve config = .ok rs ∧
        (∃ r ∈ rs.rules, r.id = "isolation-consistency") ∧
        Analysis.ofModel m rs = .ok analysis ∧
        ((farFunction id).attr "isolation").truthy = true ∧
        (Check.ownUses "MainActor" (farFunction id).children).map (·.tree.name) = [some "count"] ∧
        ∀ f ∈ analysis.findings, f.ruleId ≠ "isolation-consistency" := by
  obtain ⟨config, rs, -, hrs, r, hr, hrule, -⟩ := exists_isolationRule_bound
  obtain ⟨hindexed, hrules⟩ := Catalog.of_resolve hrs
  let m := Model.ofForest "A" [farView id] [] []
  have hshort : ∀ v ∈ m.walk, v.tree.span.isShort = true := Model.isShort_of_near (by decide)
  obtain ⟨analysis, hanalysis⟩ := (Analysis.exists_ofModel_iff hindexed).mpr
    (Survey.recordable_of_short (fun r hr => (hrules r hr).1) hshort)
  refine ⟨m, Model.ofDrafts_eq_ok_iff.mpr ⟨_, rfl, rfl⟩, config, rs, analysis, hrs,
    ⟨r, hr, congrArg Descriptor.id hrule⟩, hanalysis, truthy_longInteger, rfl, fun f hf hid => ?_⟩
  rw [((Analysis.ofModel_eq_ok_iff hindexed).mp hanalysis).1] at hf
  obtain ⟨r, hr, -, a, hsite, hreported, -⟩ :=
    (Survey.mem_isolation_iff (fun r hr => (hrules r hr).1) m f).mp ⟨hf, hid⟩
  have honly : ∀ t ∈ (Tree.visitsAmong [] m.roots).map Tree.Visit.tree, Check.Runs t →
      t = farFunction id := by
    have htrees : (Tree.visitsAmong [] m.roots).map Tree.Visit.tree =
        [farView id, .node ⟨.property, some "count", ⟨"A", 2, 1, 2, 9⟩, [("State", [])], []⟩ [],
          farFunction id, .node ⟨.identifier, some "count", ⟨"A", 4, 1, 4, 5⟩, [], []⟩ []] := rfl
    rw [htrees]
    intro t ht hruns
    simp only [List.mem_cons, List.not_mem_nil, or_false] at ht
    rcases ht with rfl | rfl | rfl | rfl
    · exact absurd hruns (by decide)
    · exact absurd hruns (by decide)
    · rfl
    · exact absurd hruns (by decide)
  rw [Model.walk, Tree.walk_eq_visitsAmong] at hsite
  have hfar : a.site = farFunction id :=
    honly a.site (List.mem_map_of_mem (f := Tree.Visit.tree) hsite) hreported.runs
  have hdeclares : Check.declaresDomain (farFunction id).kind = true := rfl
  have hdomain := hreported.domain_eq
  unfold Check.effectiveDomain? Access.context at hdomain
  dsimp only at hdomain
  rw [hfar, Check.domainAmong?, if_pos hdeclares, ownDomain?_farFunction] at hdomain
  cases hdomain

end ComponentLint

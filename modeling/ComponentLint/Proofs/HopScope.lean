-- What a hop into the domain of a component shields. Uses of state are looked
-- for from each function and closure down to the next one, and not past a hop;
-- but the domain that a function or closure runs in is taken from the ones
-- around it, hops or not. So a hop shields what runs in its own context, and
-- not what the functions and closures below it hold.
import ComponentLint.Proofs.CheckScope
import ComponentLint.Proofs.ResolvedRules
import ComponentLint.Proofs.RulePasses

namespace ComponentLint

/-! ## Accesses -/

/-- Whether a node runs on its own. -/
def Check.Runs (n : Node) : Prop := n.kind = .function ∨ n.kind = .closure

instance (n : Node) : Decidable (Check.Runs n) := inferInstanceAs (Decidable (_ ∨ _))

/-- A use of state, by the nodes from the top of the unit down to it: those outside of the component
it belongs to, the component, those between it and the function or closure that the use runs in,
that one, and the use with the nodes on the last part of the way; with the domain of the component
and the one that the use is made from. -/
structure Access where
  outside : List Node
  component : Node
  between : List Node
  site : Node
  use : Tree.Visit (Entry Kind)
  home : String
  domain : Option String

namespace Access

/-- The function or closure that an access runs in, on the walk. -/
def siteVisit (a : Access) : Tree.Visit (Entry Kind) :=
  ⟨a.site, a.outside ++ a.component :: a.between⟩

/-- The nodes inside of the component on the way to the use, the use included. -/
def inside (a : Access) : List Node := a.between ++ a.site :: (a.use.ancestors ++ [a.use.tree])

/-- What the check of a rule sees of an access. -/
def context (a : Access) (r : ActiveRule) (m : Model) : Context :=
  ⟨a.site, a.outside ++ a.component :: a.between, m, r.params⟩

/-- The annotations by which a rule isolates to a domain. -/
def isolating (a : Access) (r : ActiveRule) (m : Model) : List String :=
  Check.isolating (a.context r m)

/-- The remark on an access. -/
def remark (a : Access) (r : ActiveRule) (m : Model) : Remark :=
  Check.isolationRemark (a.context r m) a.component a.home a.domain
    (Check.usedName a.use.tree, a.use.tree)

/-- An access that is a violation: the first use of its name from a function or closure whose domain
is another one than that of the nearest component around it. -/
structure Reported (a : Access) (r : ActiveRule) (m : Model) : Prop where
  runs : Check.Runs a.site
  component : a.component.kind = .component
  nearest : ∀ n ∈ a.between, n.kind ≠ .component
  home_eq : Check.ownDomain? a.component (a.isolating r m) = .ok (some a.home)
  isolated : a.home ≠ Check.nonisolated
  domain_eq : Check.effectiveDomain? (a.context r m) (a.isolating r m) = .ok a.domain
  elsewhere : a.domain ≠ some a.home
  exempt : a.domain ≠ some Check.nonisolated
  state : Check.usedName a.use.tree ∈
    Check.stateNames a.component ((a.context r m).names "stateAnnotations")
  first : (Check.ownUses a.home a.site.children).find?
    (fun v => Check.usedName v.tree == Check.usedName a.use.tree) = some a.use

end Access

theorem Context.component?_eq_some_iff {ctx : Context} {component : Node} :
    ctx.component? = some component ↔ ∃ outside between,
      ctx.ancestors = outside ++ component :: between ∧ component.kind = .component ∧
        ∀ n ∈ between, n.kind ≠ .component := by
  unfold component? nearest?
  rw [List.find?_eq_some_iff_append]
  constructor
  · rintro ⟨hkind, inner, outer, hsplit, hinner⟩
    refine ⟨outer.reverse, inner.reverse, ?_, by simpa using hkind, ?_⟩
    · rw [← List.reverse_reverse ctx.ancestors, hsplit]
      simp
    · intro n hn
      simpa using hinner n (List.mem_reverse.mp hn)
  · rintro ⟨outside, between, hsplit, hkind, hbetween⟩
    refine ⟨by simp [hkind], between.reverse, outside.reverse, ?_, ?_⟩
    · rw [hsplit]
      simp
    · intro n hn
      simpa using hbetween n (List.mem_reverse.mp hn)

namespace Access

/-- The remarks of the check at a function or closure are those on the accesses from there that are
violations. -/
theorem mem_isolation_iff {r : ActiveRule} {m : Model} {v : Tree.Visit (Entry Kind)}
    (hruns : Check.Runs v.tree) {remark : Remark} :
    remark ∈ (Check.isolation ⟨v.tree, v.ancestors, m, r.params⟩).remarks ↔
      ∃ a : Access, a.siteVisit = v ∧ a.Reported r m ∧ remark = a.remark r m := by
  constructor
  · intro h
    obtain ⟨component, home, domain, helsewhere⟩ := Check.exists_elsewhere_of_mem h
    obtain ⟨outside, between, hancestors, hkind, hnearest⟩ :=
      Context.component?_eq_some_iff.mp helsewhere.around
    rw [helsewhere.isolation_eq] at h
    obtain ⟨⟨name, n⟩, huse, rfl⟩ := List.mem_map.mp h
    rw [Check.mem_firstUses_iff, Check.identifiersAmong_eq, List.find?_map] at huse
    obtain ⟨hstate, -, hfirst⟩ := huse
    obtain ⟨use, huse, rfl⟩ := Option.map_eq_some_iff.mp hfirst
    have hname : Check.usedName use.tree = name := by simpa using List.find?_some huse
    subst hname
    obtain ⟨tree, ancestors⟩ := v
    dsimp only at hancestors
    subst hancestors
    obtain ⟨-, hhome, hisolated, hdomain, hother, hexempt⟩ := helsewhere
    exact ⟨⟨outside, component, between, tree, use, home, domain⟩, rfl,
      ⟨hruns, hkind, hnearest, hhome, hisolated, hdomain, hother, hexempt, hstate, huse⟩, rfl⟩
  · rintro ⟨a, rfl, h, rfl⟩
    have helsewhere : Check.Elsewhere (a.context r m) a.component a.home a.domain :=
      ⟨Context.component?_eq_some_iff.mpr ⟨a.outside, a.between, rfl, h.component, h.nearest⟩,
        h.home_eq, h.isolated, h.domain_eq, h.elsewhere, h.exempt⟩
    have huse : (Check.usedName a.use.tree, a.use.tree) ∈ Check.firstUses
        (Check.stateNames a.component ((a.context r m).names "stateAnnotations")) []
        (Check.identifiersAmong a.home a.site.children) := by
      rw [Check.mem_firstUses_iff, Check.identifiersAmong_eq, List.find?_map]
      refine ⟨h.state, by simp, ?_⟩
      exact Option.map_eq_some_iff.mpr ⟨a.use, h.first, rfl⟩
    change a.remark r m ∈ (Check.isolation (a.context r m)).remarks
    rw [helsewhere.isolation_eq]
    exact List.mem_map_of_mem huse

end Access

/-- The rule about isolation. -/
def isolationRule : Descriptor := standardRules.get ⟨2, by decide⟩

theorem eq_isolationRule {d : Descriptor} (hd : d ∈ standardRules)
    (hid : d.id = "isolation-consistency") : d = isolationRule := by
  exact List.inj_on_of_nodup_map Catalog.nodup_standard_ids hd (List.get_mem _ _) hid

namespace ActiveRule

variable {r : ActiveRule} (hrule : r.descriptor = isolationRule)
include hrule

theorem findings_survey_isolation (m : Model) (v : Tree.Visit (Entry Kind)) :
    (r.survey m v).findings =
      (Check.isolation ⟨v.tree, v.ancestors, m, r.params⟩).remarks.map r.finding := by
  apply findings_survey_ofAttempt
  rw [hrule]
  rfl

theorem inspects_iff_runs (v : Tree.Visit (Entry Kind)) :
    r.inspects v.tree.kind = true ↔ Check.Runs v.tree := by
  rw [inspects, hrule]
  simp [isolationRule, standardRules, Check.Runs, or_comm]

end ActiveRule

/-- The findings about isolation are those on the accesses in a unit that are violations. -/
theorem Survey.mem_isolation_iff {rs : ActiveRules}
    (hrules : ∀ r ∈ rs.rules, r.descriptor ∈ standardRules) (m : Model) (f : Finding) :
    f ∈ (Survey.ofModel m rs).findings ∧ f.ruleId = "isolation-consistency" ↔
      ∃ r ∈ rs.rules, r.id = "isolation-consistency" ∧ ∃ a : Access,
        a.siteVisit ∈ m.walk ∧ a.Reported r m ∧ f = r.finding (a.remark r m) := by
  have hrule : ∀ r ∈ rs.rules, r.id = "isolation-consistency" → r.descriptor = isolationRule :=
    fun r hr hid => eq_isolationRule (hrules r hr) hid
  have hwalk : m.walk = Tree.visitsAmong [] m.roots := Tree.walk_eq_visitsAmong m.roots
  have hpass := Evaluation.ofForest_perm rs [] m.roots
  rw [hwalk]
  simp only [ofModel, ofEvaluations, List.mem_flatMap, hpass.mem_iff]
  constructor
  · rintro ⟨⟨e, ⟨v, hv, he⟩, hf⟩, hid⟩
    obtain ⟨r, hlooks, rfl⟩ := List.mem_map.mp he
    obtain ⟨hr, hinspected⟩ := List.mem_filter.mp hlooks
    obtain ⟨check, -, remark, -, rfl⟩ := ActiveRule.of_mem_survey hf
    have hf : r.finding remark ∈ (r.survey m v).findings := hf
    rw [ActiveRule.findings_survey_isolation (hrule r hr hid)] at hf
    obtain ⟨remark', hremark', hfinding⟩ := List.mem_map.mp hf
    have hruns := (ActiveRule.inspects_iff_runs (hrule r hr hid) v).mp hinspected
    obtain ⟨a, rfl, hreported, rfl⟩ := (Access.mem_isolation_iff hruns).mp hremark'
    exact ⟨r, hr, hid, a, hv, hreported, hfinding.symm⟩
  · rintro ⟨r, hr, hid, a, hv, hreported, rfl⟩
    refine ⟨⟨⟨r, a.siteVisit⟩, ⟨a.siteVisit, hv, ?_⟩, ?_⟩, hid⟩
    · refine List.mem_map_of_mem (List.mem_filter.mpr ⟨hr, ?_⟩)
      exact (ActiveRule.inspects_iff_runs (hrule r hr hid) a.siteVisit).mpr hreported.runs
    · have hremark := (Access.mem_isolation_iff (v := a.siteVisit) hreported.runs).mpr
        ⟨a, rfl, hreported, rfl⟩
      change r.finding (a.remark r m) ∈ (r.survey m a.siteVisit).findings
      rw [ActiveRule.findings_survey_isolation (hrule r hr hid)]
      exact List.mem_map_of_mem hremark

/-! ## Hops -/

namespace Check

theorem declaresDomain_iff {n : Node} (h : n.kind ≠ .component) :
    declaresDomain n.kind = true ↔ Runs n := by
  unfold Runs
  generalize n.kind = kind at h ⊢
  cases kind <;> simp_all [declaresDomain]

/-- Where the inner nodes declare no domain, the outer ones decide. -/
theorem domainAmong?_append (isolating : List String) (inner outer : List Node) :
    domainAmong? isolating (inner ++ outer) = domainAmong? isolating inner >>= fun domain =>
      domain.elim (domainAmong? isolating outer) fun name => .ok (some name) := by
  induction inner with
  | nil => rfl
  | cons n inner ih =>
    rw [List.cons_append, domainAmong?, domainAmong?, ih]
    by_cases hdeclares : declaresDomain n.kind
    · rw [if_pos hdeclares, if_pos hdeclares]
      cases ownDomain? n isolating with
      | error failure => rfl
      | ok own => cases own <;> rfl
    · rw [if_neg hdeclares, if_neg hdeclares]

theorem domainAmong?_eq_none {isolating : List String} {nodes : List Node}
    (h : ∀ n ∈ nodes, declaresDomain n.kind → ownDomain? n isolating = .ok none) :
    domainAmong? isolating nodes = .ok none := by
  induction nodes with
  | nil => rfl
  | cons n rest ih =>
    obtain ⟨hn, hrest⟩ := List.forall_mem_cons.mp h
    rw [domainAmong?, ih hrest]
    by_cases hdeclares : declaresDomain n.kind
    · rw [if_pos hdeclares, hn hdeclares]
      rfl
    · rw [if_neg hdeclares]

end Check

namespace Access

variable {a : Access} {r : ActiveRule} {m : Model}

/-- No hop into the domain stands between a violation and the function or closure it runs in. -/
theorem Reported.hop_above_site (h : a.Reported r m) {before after : List Node} {hop : Node}
    (hsplit : a.inside = before ++ hop :: after) (hhop : (hop.attr "hop").isText a.home) :
    ∃ rest, a.between ++ [a.site] = before ++ hop :: rest ∧
      after = rest ++ (a.use.ancestors ++ [a.use.tree]) := by
  have hbelow : hop ∉ a.use.ancestors ++ [a.use.tree] := by
    intro hmem
    have hstays := (List.mem_filter.mp (List.mem_of_find?_eq_some h.first)).2
    rw [Check.staysIn, Bool.and_eq_true, List.all_eq_true] at hstays
    have hleaves := hstays.2 hop hmem
    simp only [Check.leavesContext, Bool.not_eq_true', Bool.or_eq_false_iff] at hleaves
    exact absurd hhop (by simpa [Tree.attr] using hleaves.2)
  unfold inside at hsplit
  rw [List.append_cons, List.append_eq_append_iff] at hsplit
  rcases hsplit with ⟨rest, -, hrest⟩ | ⟨rest, hsite, hrest⟩
  · exact absurd (by simp [hrest]) hbelow
  · rcases rest with _ | ⟨first, rest⟩
    · rw [List.nil_append] at hrest
      exact absurd (hrest ▸ List.mem_cons_self) hbelow
    · obtain ⟨rfl, rfl⟩ := List.cons.inj hrest
      exact ⟨rest, hsite, rfl⟩

/-- A hop around a violation is above the function or closure it runs in. -/
theorem Reported.exists_runs_of_hop (h : a.Reported r m) {before after : List Node} {hop : Node}
    (hsplit : a.inside = before ++ hop :: after) (hhop : (hop.attr "hop").isText a.home) :
    ∃ n ∈ hop :: after, Check.Runs n := by
  obtain ⟨rest, hsite, rfl⟩ := h.hop_above_site hsplit hhop
  refine ⟨a.site, ?_, h.runs⟩
  have hlast := congrArg List.getLast? hsite
  rw [List.getLast?_concat, List.getLast?_append, List.getLast?_cons, Option.some_or] at hlast
  have hmem : a.site ∈ hop :: rest := by
    refine List.mem_of_getLast? ?_
    rw [List.getLast?_cons, hlast]
  rw [← List.cons_append]
  exact List.mem_append_left _ hmem

/-- If no function or closure from a hop down to a violation declares a domain, the violation is
made from the domain around the hop. -/
theorem Reported.domain_of_hop (h : a.Reported r m) {before after : List Node} {hop : Node}
    (hsplit : a.inside = before ++ hop :: after) (hhop : (hop.attr "hop").isText a.home)
    (hnone : ∀ n ∈ hop :: after, Check.Runs n → Check.ownDomain? n (a.isolating r m) = .ok none) :
    Check.domainAmong? (a.isolating r m) (a.outside ++ a.component :: before).reverse =
      .ok a.domain := by
  obtain ⟨rest, hsite, rfl⟩ := h.hop_above_site hsplit hhop
  have hpath : a.site :: (a.outside ++ a.component :: a.between).reverse =
      (hop :: rest).reverse ++ (a.outside ++ a.component :: before).reverse := by
    rw [← List.reverse_append, ← List.reverse_concat, List.append_assoc, List.append_assoc,
      List.cons_append, List.cons_append, hsite]
  have hinner : Check.domainAmong? (a.isolating r m) (hop :: rest).reverse = .ok none := by
    refine Check.domainAmong?_eq_none fun n hn hdeclares => ?_
    rw [List.mem_reverse] at hn
    -- Nothing below the nearest component is a component.
    have hkind : n.kind ≠ .component := by
      have hmem : n ∈ a.between ++ [a.site] := hsite ▸ List.mem_append_right _ hn
      rcases List.mem_append.mp hmem with hmem | hmem
      · exact h.nearest n hmem
      · rw [List.mem_singleton.mp hmem]
        intro heq
        rcases h.runs with hruns | hruns
        · cases hruns.symm.trans heq
        · cases hruns.symm.trans heq
    have hruns : Check.Runs n := (Check.declaresDomain_iff hkind).mp hdeclares
    refine hnone n ?_ hruns
    rw [← List.cons_append]
    exact List.mem_append_left _ hn
  have hdomain : Check.domainAmong? (a.isolating r m)
      (a.site :: (a.outside ++ a.component :: a.between).reverse) = .ok a.domain := h.domain_eq
  rw [hpath, Check.domainAmong?_append, hinner] at hdomain
  exact hdomain

end Access

/-- There is an analysis as long as every failure can be put on record, and what it reports about
isolation are the accesses that are violations. Where one of them is below a hop into the domain of
its component, a function or closure stands at or below the hop. If none of these declares a domain,
the access is judged by the domain around the hop. -/
theorem hops_shield_what_runs_in_their_own_context (config : Configuration) (rs : ActiveRules)
    (hrs : Catalog.standard.resolve config = .ok rs) (m : Model) :
    ((∃ analysis, Analysis.ofModel m rs = .ok analysis) ↔
      ∀ f ∈ (Survey.ofModel m rs).failures, f.Recordable) ∧
    (∀ analysis, Analysis.ofModel m rs = .ok analysis →
      ∀ f, f ∈ analysis.findings ∧ f.ruleId = "isolation-consistency" ↔
        ∃ r ∈ rs.rules, r.id = "isolation-consistency" ∧ ∃ a : Access,
          a.siteVisit ∈ m.walk ∧ a.Reported r m ∧ f = r.finding (a.remark r m)) ∧
    ∀ (r : ActiveRule) (a : Access), a.Reported r m →
      ∀ before hop after, a.inside = before ++ hop :: after → (hop.attr "hop").isText a.home →
        (∃ n ∈ hop :: after, Check.Runs n) ∧
        ((∀ n ∈ hop :: after, Check.Runs n → Check.ownDomain? n (a.isolating r m) = .ok none) →
          Check.domainAmong? (a.isolating r m) (a.outside ++ a.component :: before).reverse =
            .ok a.domain) := by
  obtain ⟨hindexed, hrules⟩ := Catalog.of_resolve hrs
  refine ⟨Analysis.exists_ofModel_iff hindexed, fun analysis hanalysis f => ?_, ?_⟩
  · rw [((Analysis.ofModel_eq_ok_iff hindexed).mp hanalysis).1]
    exact Survey.mem_isolation_iff (fun r hr => (hrules r hr).1) m f
  · intro r a h before hop after hsplit hhop
    exact ⟨h.exists_runs_of_hop hsplit hhop, h.domain_of_hop hsplit hhop⟩

/-! ## A closure below a hop -/

section

variable {κ : Type} (kindOf : Kind → κ)

/-- A closure that uses `count`. -/
def runClosure : Tree (Entry κ) :=
  .node ⟨kindOf .closure, none, ⟨"A", 5, 1, 7, 1⟩, [], []⟩
    [.node ⟨kindOf .identifier, some "count", ⟨"A", 6, 1, 6, 5⟩, [], []⟩ []]

/-- The closure below a hop to the main actor. -/
def runHop : Tree (Entry κ) :=
  .node ⟨kindOf .modifier, some "run", ⟨"A", 4, 1, 8, 1⟩, [], [("hop", .str "MainActor")]⟩
    [runClosure kindOf]

/-- The hop in a function that runs elsewhere. -/
def loadFunction : Tree (Entry κ) :=
  .node ⟨kindOf .function, some "load", ⟨"A", 3, 1, 9, 1⟩, [], [("isolation", .str "global")]⟩
    [runHop kindOf]

/-- The function in a component of the main actor with a state `count`. -/
def counterView : Tree (Entry κ) :=
  .node ⟨kindOf .component, some "CounterView", ⟨"A", 1, 1, 12, 1⟩, [("MainActor", [])], []⟩
    [.node ⟨kindOf .property, some "count", ⟨"A", 2, 1, 2, 9⟩, [("State", [])], []⟩ [],
     loadFunction kindOf]

end

/-- The component as a unit. -/
def counterUnit : Model := Model.ofForest "A" [counterView id] [] []

theorem counterUnit_accepted : counterUnit.Accepted := by
  have hmade : Model.ofDrafts "A" [counterView Kind.name] [] [] = .ok counterUnit :=
    Model.ofDrafts_eq_ok_iff.mpr ⟨_, rfl, rfl⟩
  exact Model.accepted_of_ofDrafts hmade

/-- The use of the state in the closure. -/
def counterAccess : Access where
  outside := []
  component := counterView id
  between := [loadFunction id, runHop id]
  site := runClosure id
  use := ⟨.node ⟨.identifier, some "count", ⟨"A", 6, 1, 6, 5⟩, [], []⟩ [], []⟩
  home := "MainActor"
  domain := some "global"

theorem counterAccess_mem_walk : counterAccess.siteVisit ∈ counterUnit.walk := by
  have hwalk : counterUnit.walk = Tree.visitsAmong [] counterUnit.roots :=
    Tree.walk_eq_visitsAmong _
  have hplace : (Tree.visitsAmong [] counterUnit.roots)[4]? = some counterAccess.siteVisit := rfl
  rw [hwalk]
  exact List.mem_of_getElem? hplace

theorem isolationRule_params {r : ActiveRule} (hrule : r.descriptor = isolationRule)
    (hbound : r.BoundUnder []) :
    r.params.get? "isolationAnnotations" = some (.tuple [.str "MainActor"]) ∧
    r.params.get? "stateAnnotations" = some (.tuple [.str "State", .str "StateObject",
      .str "ObservedObject", .str "Published", .str "Binding", .str "Bindable",
      .str "EnvironmentObject"]) := by
  obtain ⟨d, severity, params⟩ := r
  cases hrule
  exact ⟨hbound.get? rfl rfl rfl, hbound.get? rfl rfl rfl⟩

theorem counterAccess_isolating {r : ActiveRule} (hrule : r.descriptor = isolationRule)
    (hbound : r.BoundUnder []) : counterAccess.isolating r counterUnit = ["MainActor"] := by
  have hparam := (isolationRule_params hrule hbound).1
  simp [Access.isolating, Check.isolating, Access.context, Context.names, hparam, Value.text?]

theorem counterAccess_reported {r : ActiveRule} (hrule : r.descriptor = isolationRule)
    (hbound : r.BoundUnder []) : counterAccess.Reported r counterUnit := by
  have hisolating := counterAccess_isolating hrule hbound
  have hmarks : (counterAccess.context r counterUnit).names "stateAnnotations" =
      ["State", "StateObject", "ObservedObject", "Published", "Binding", "Bindable",
        "EnvironmentObject"] := by
    have hparam := (isolationRule_params hrule hbound).2
    simp [Access.context, Context.names, hparam, Value.text?]
  refine ⟨Or.inr rfl, rfl, by decide, ?_, by decide, ?_, by decide, by decide, ?_, rfl⟩
  · rw [hisolating]
    rfl
  · rw [hisolating]
    rfl
  · rw [hmarks]
    decide

/-- The rule about isolation is in the run of the defaults. -/
theorem exists_isolationRule_bound :
    ∃ config rs, Configuration.ofLayers .standard [] = .ok config ∧
      Catalog.standard.resolve config = .ok rs ∧
      ∃ r ∈ rs.rules, r.descriptor = isolationRule ∧ r.BoundUnder [] := by
  obtain ⟨config, rs, hconfig, hrs⟩ := Catalog.exists_resolve_standard
  have hbound := Catalog.boundUnder_of_resolve Catalog.nodup_standard_ids [] hconfig hrs
  obtain ⟨r, hr, hrule⟩ := (hbound.rules isolationRule).mpr ⟨List.get_mem _ _, rfl⟩
  exact ⟨config, rs, hconfig, hrs, r, hr, hrule, hbound.bound r hr⟩

theorem counterUnit_is_reported_below_the_hop :
    ∃ config rs analysis, Catalog.standard.resolve config = .ok rs ∧
      Analysis.ofModel counterUnit rs = .ok analysis ∧
      ∃ f ∈ analysis.findings, f.ruleId = "isolation-consistency" ∧
        f.span = ⟨"A", 6, 1, 6, 5⟩ := by
  obtain ⟨config, rs, -, hrs, r, hr, hrule, hbound⟩ := exists_isolationRule_bound
  have hid : r.id = "isolation-consistency" := congrArg Descriptor.id hrule
  have hshort : ∀ v ∈ counterUnit.walk, v.tree.span.isShort = true :=
    Model.isShort_of_near (by decide)
  obtain ⟨hexists, hreports, -⟩ :=
    hops_shield_what_runs_in_their_own_context config rs hrs counterUnit
  obtain ⟨analysis, hanalysis⟩ := hexists.mpr
    (Survey.recordable_of_short (fun r hr => ((Catalog.of_resolve hrs).2 r hr).1) hshort)
  have hfinding := (hreports analysis hanalysis _).mpr
    ⟨r, hr, hid, counterAccess, counterAccess_mem_walk, counterAccess_reported hrule hbound, rfl⟩
  exact ⟨config, rs, analysis, hrs, hanalysis, _, hfinding.1, hfinding.2, rfl⟩

-- The closure takes its domain from the function around it, past the hop that it is in.
theorem closures_below_hops_are_reported :
    ¬ ∀ (m : Model), m.Accepted → ∀ (config : Configuration) (rs : ActiveRules),
      Catalog.standard.resolve config = .ok rs →
      ∀ r ∈ rs.rules, r.id = "isolation-consistency" →
      ∀ a : Access, a.siteVisit ∈ m.walk → a.Reported r m →
      ∀ before hop after, a.inside = before ++ hop :: after → (hop.attr "hop").isText a.home →
        ∃ n ∈ hop :: after, Check.Runs n ∧ Check.ownDomain? n (a.isolating r m) ≠ .ok none := by
  intro h
  obtain ⟨config, rs, -, hrs, r, hr, hrule, hbound⟩ := exists_isolationRule_bound
  have hid : r.id = "isolation-consistency" := congrArg Descriptor.id hrule
  obtain ⟨n, hn, hruns, hdomain⟩ := h counterUnit counterUnit_accepted config rs hrs r hr hid
    counterAccess counterAccess_mem_walk (counterAccess_reported hrule hbound)
    [loadFunction id] (runHop id) [runClosure id, counterAccess.use.tree] rfl rfl
  -- Of the nodes from the hop on only the closure runs on its own, and it declares nothing.
  have hsilent : ∀ n ∈ [runHop id, runClosure id, counterAccess.use.tree], Check.Runs n →
      Check.ownDomain? n ["MainActor"] = .ok none := by decide
  rw [counterAccess_isolating hrule hbound] at hdomain
  exact hdomain (hsilent n hn hruns)

end ComponentLint

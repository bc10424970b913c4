-- Resolving layers over a catalog. An entry for a rule that is not registered
-- is refused before anything else, then a value that does not fit a parameter
-- of a rule, switched on or not; of several culprits the one with the least id
-- is named, as long as its value can be written. Otherwise the run has the
-- rules that are switched on.
import ComponentLint.Proofs.EffectiveSettings
import ComponentLint.Proofs.FirstFailure
import ComponentLint.Proofs.ParameterDomains
import ComponentLint.Proofs.Resolution
import Mathlib.Order.Bounds.Defs

namespace ComponentLint

/-- The first item of a list in ascending order that has a property bears the least key of those
that have it. -/
theorem isLeast_of_first {α : Type} {f : α → String} {P : α → Prop} {items before after : List α}
    {a : α} (hsorted : items.Pairwise fun a b => f a ≤ f b)
    (hsplit : items = before ++ a :: after) (hbefore : ∀ b ∈ before, ¬ P b) (ha : P a) :
    IsLeast {k | ∃ b ∈ items, f b = k ∧ P b} (f a) := by
  refine ⟨⟨a, by simp [hsplit], rfl, ha⟩, ?_⟩
  rintro k ⟨b, hb, rfl, hP⟩
  rw [hsplit, List.pairwise_append, List.pairwise_cons] at hsorted
  rw [hsplit, List.mem_append, List.mem_cons] at hb
  rcases hb with hb | rfl | hb
  · exact absurd hP (hbefore b hb)
  · exact String.le_refl _
  · exact hsorted.2.1.1 b hb

/-! ## Parameters of one rule -/

/-- A refusal because of a parameter. -/
def CatalogFault.IsInvalidParameter : CatalogFault → Prop
  | undeclared _ _ _ => True
  | unfit _ _ _ => True
  | _ => False

namespace Descriptor

variable {d : Descriptor} {layers : List Layer} {name : String} {v w : Value}

/-- Whether a rule declares a parameter whose domain accepts a value. -/
def Takes (d : Descriptor) (name : String) (v : Value) : Prop :=
  ∃ p, d.param? name = some p ∧ p.Accepts v

/-- A rule that has a parameter which it does not declare or whose value is outside the domain. -/
def Misfit (d : Descriptor) (layers : List Layer) : Prop :=
  ∃ name v, d.paramUnder layers name = some v ∧ ¬ d.Takes name v

/-- The parameters of a rule that it does not declare or whose values are outside the domain. -/
def misfitNames (d : Descriptor) (layers : List Layer) : Set String :=
  {name | ∃ v, d.paramUnder layers name = some v ∧ ¬ d.Takes name v}

/-- The first parameter, by name, that a rule does not take can be told of: it is not declared, or
what there is to say about its value can be written. -/
def Told (d : Descriptor) (layers : List Layer) : Prop :=
  ∀ name, IsLeast (d.misfitNames layers) name →
    ∀ v p, d.paramUnder layers name = some v → d.param? name = some p → p.Tellable v

theorem coerce_eq_ok_iff :
    d.coerce name v = .ok w ↔ ∃ p, d.param? name = some p ∧ p.coerce v = .ok w := by
  unfold coerce
  cases d.param? name with
  | none => simp
  | some p => simp [mapError_eq_ok_iff]

theorem exists_coerce_iff : (∃ w, d.coerce name v = .ok w) ↔ d.Takes name v := by
  simp only [coerce_eq_ok_iff, Takes, ← Parameter.exists_coerce_iff]
  constructor
  · rintro ⟨w, p, hp, hw⟩
    exact ⟨p, hp, w, hw⟩
  · rintro ⟨p, hp, w, hw⟩
    exact ⟨w, p, hp, hw⟩

/-- A rule refuses a value it does not take in words that name the rule, when these can be
written. -/
theorem coerce_eq_error {stop : Stop CatalogFault} (h : d.coerce name v = .error stop) :
    (∃ fault, stop = .refused fault ∧ fault.IsInvalidParameter ∧ fault.ruleId = d.id) ∧
        (∀ p, d.param? name = some p → p.Tellable v) ∨
      stop = .longInteger ∧ ∃ p, d.param? name = some p ∧ ¬ p.Tellable v := by
  unfold coerce at h
  split at h
  · rename_i hnone
    cases h
    exact Or.inl ⟨⟨_, rfl, trivial, rfl⟩, fun p hp => by rw [hnone] at hp; cases hp⟩
  · rename_i p hp
    obtain ⟨why, hwhy, rfl⟩ := mapError_eq_error_iff.mp h
    rcases Parameter.coerce_eq_error hwhy with ⟨⟨reason, rfl⟩, htellable⟩ | ⟨rfl, hlong⟩
    · refine Or.inl ⟨⟨_, rfl, trivial, rfl⟩, fun p' hp' => ?_⟩
      cases hp.symm.trans hp'
      exact htellable
    · exact Or.inr ⟨rfl, p, hp, hlong⟩

/-! ## Setting the parameters of a rule -/

variable {params values bound : Entries Value}

theorem firstFailure_of_bind {stop : Stop CatalogFault} (h : d.bind params values = .error stop) :
    FirstFailure (fun e => d.coerce e.1 e.2) values stop := by
  induction values generalizing params with
  | nil => cases h
  | cons e rest ih =>
    rw [firstFailure_cons]
    rcases bind_eq_error_iff.mp h with hfault | ⟨b, hb, hrest⟩
    · exact Or.inl hfault
    · exact Or.inr ⟨⟨b, hb⟩, ih hrest⟩

/-- Setting parameters puts each given value into its domain and leaves the others. -/
theorem get?_bind (hdistinct : values.names.Nodup) (h : d.bind params values = .ok bound)
    (name : String) :
    (∀ v, (name, v) ∈ values → ∃ w, d.coerce name v = .ok w ∧ bound.get? name = some w) ∧
      (name ∉ values.names → bound.get? name = params.get? name) := by
  induction values generalizing params with
  | nil =>
    cases h
    simp
  | cons e rest ih =>
    obtain ⟨n, a⟩ := e
    obtain ⟨b, hb, hrest⟩ := bind_eq_ok_iff.mp h
    obtain ⟨hnew, hdistinct⟩ := List.nodup_cons.mp hdistinct
    obtain ⟨hgiven, hother⟩ := ih hdistinct hrest
    constructor
    · intro v hv
      rcases List.mem_cons.mp hv with heq | hv
      · -- The first parameter is not set again further on.
        cases heq
        refine ⟨b, hb, ?_⟩
        rw [hother hnew, Entries.get?_put, if_pos rfl]
      · exact hgiven v hv
    · intro hname
      obtain ⟨hne, hname⟩ := not_or.mp (mt List.mem_cons.mpr hname)
      rw [hother hname, Entries.get?_put, if_neg (Ne.symm hne)]

theorem exists_param?_iff : (∃ p, d.param? name = some p) ↔ ∃ p ∈ d.params, p.name = name := by
  unfold param?
  rw [← Option.isSome_iff_exists, List.find?_isSome]
  simp

theorem exists_defaults_iff :
    (∃ v, d.defaults.get? name = some v) ↔ ∃ p ∈ d.params, p.name = name := by
  unfold defaults
  rw [Entries.get?_ofList, ← Option.isSome_iff_exists, lastWord, List.findSome?_isSome_iff]
  simp [Entries.storedAs]

theorem nodup_names_bind (hparams : params.names.Nodup) (h : d.bind params values = .ok bound) :
    bound.names.Nodup := by
  induction values generalizing params with
  | nil =>
    cases h
    exact hparams
  | cons e rest ih =>
    obtain ⟨n, a⟩ := e
    obtain ⟨b, -, hrest⟩ := bind_eq_ok_iff.mp h
    exact ih (Entries.nodup_names_putAll hparams [(n, b)]) hrest

end Descriptor

/-! ## A rule of a run -/

/-- A rule of a run that is as layers make it. -/
structure ActiveRule.BoundUnder (layers : List Layer) (r : ActiveRule) : Prop where
  enabled : r.descriptor.enabledUnder layers = true
  severity : r.severity = (r.descriptor.severityUnder layers).name
  distinct : r.params.names.Nodup
  declared : ∀ name, name ∈ r.params.names ↔ ∃ p ∈ r.descriptor.params, p.name = name
  value : ∀ name w, (name, w) ∈ r.params → ∃ p v, r.descriptor.param? name = some p ∧
    r.descriptor.paramUnder layers name = some v ∧ p.coerce v = .ok w ∧ p.Holds w

namespace Descriptor

variable {d : Descriptor} {layers : List Layer} {settings : RuleConfig}

theorem overrides_ascending (settings : RuleConfig) :
    (settings.params.mergeSort fun a b => (compare a.1 b.1).isLE).Pairwise
      fun a b => a.1 ≤ b.1 := by
  refine (pairwise_mergeSort_cmp (compareOn Prod.fst) settings.params).imp ?_
  intro a b hab
  exact (compare_isLE_iff_le _ _).mp hab

theorem told_iff_of_isLeast {name : String} {v : Value}
    (hleast : IsLeast (d.misfitNames layers) name) (hv : d.paramUnder layers name = some v) :
    d.Told layers ↔ ∀ p, d.param? name = some p → p.Tellable v := by
  constructor
  · intro h p hp
    exact h name hleast v p hv hp
  · intro h name' hleast' v' p hv' hp
    obtain rfl := String.le_antisymm (hleast'.2 hleast.1) (hleast.2 hleast'.1)
    cases hv.symm.trans hv'
    exact h p hp

section

variable (hs : settings.Effective d layers)
include hs

theorem mem_overrides_iff {name : String} {v : Value} :
    (name, v) ∈ settings.params.mergeSort (fun a b => (compare a.1 b.1).isLE) ↔
      d.paramUnder layers name = some v := by
  rw [(List.mergeSort_perm _ _).mem_iff, Entries.mem_iff_get? hs.distinct, hs.param]

/-- The first of the settings by name that the rule does not take is the least misfit. -/
theorem isLeast_misfitNames {before after : Entries Value} {name : String} {v : Value}
    (hsplit : settings.params.mergeSort (fun a b => (compare a.1 b.1).isLE) =
      before ++ (name, v) :: after)
    (hbefore : ∀ e ∈ before, d.Takes e.1 e.2) (hnot : ¬ d.Takes name v) :
    IsLeast (d.misfitNames layers) name := by
  have hnames : d.misfitNames layers =
      {k | ∃ e ∈ settings.params.mergeSort (fun a b => (compare a.1 b.1).isLE),
        e.1 = k ∧ ¬ d.Takes e.1 e.2} := by
    ext k
    simp only [misfitNames, ← mem_overrides_iff hs, Set.mem_ofPred_eq]
    constructor
    · rintro ⟨v, hmem, hnot⟩
      exact ⟨(k, v), hmem, rfl, hnot⟩
    · rintro ⟨e, hmem, rfl, hnot⟩
      exact ⟨e.2, hmem, hnot⟩
  rw [hnames]
  refine isLeast_of_first (P := fun e => ¬ d.Takes e.1 e.2) (overrides_ascending settings)
    hsplit ?_ hnot
  exact fun e he => not_not.mpr (hbefore e he)

/-- A rule that cannot be bound is refused for the first parameter, by name, that it does not
take. -/
theorem activate_eq_error {stop : Stop CatalogFault} (h : d.activate settings = .error stop) :
    (∃ fault, stop = .refused fault ∧ fault.IsInvalidParameter ∧ fault.ruleId = d.id) ∧
        d.Told layers ∨
      stop = .longInteger ∧ ¬ d.Told layers := by
  have hbind : d.bind d.defaults (settings.params.mergeSort fun a b => (compare a.1 b.1).isLE) =
      .error stop := by
    unfold activate at h
    rcases bind_eq_error_iff.mp h with hbind | ⟨params, -, hfault⟩
    · exact hbind
    · split at hfault
      · cases hfault
      · cases hfault
  obtain ⟨before, ⟨name, v⟩, after, hsplit, hbefore, hfails⟩ := firstFailure_of_bind hbind
  have hv : d.paramUnder layers name = some v := by
    rw [← mem_overrides_iff hs, hsplit]
    simp
  have hnot : ¬ d.Takes name v := by
    intro htakes
    obtain ⟨w, hw⟩ := exists_coerce_iff.mpr htakes
    cases hw.symm.trans hfails
  have hleast := isLeast_misfitNames hs hsplit (fun e he => exists_coerce_iff.mp (hbefore e he)) hnot
  rw [told_iff_of_isLeast hleast hv]
  rcases coerce_eq_error hfails with hrefused | ⟨hlong, p, hp, hnot⟩
  · exact Or.inl hrefused
  · exact Or.inr ⟨hlong, fun h => hnot (h p hp)⟩

/-- What binding the settings of a rule comes to: all parameters of the rule under the layers are
taken, and they are the values that the rule is bound to. -/
theorem of_bind_overrides {bound : Entries Value}
    (h : d.bind d.defaults (settings.params.mergeSort fun a b => (compare a.1 b.1).isLE) =
      .ok bound) :
    (∀ name v, d.paramUnder layers name = some v →
      ∃ w, d.coerce name v = .ok w ∧ bound.get? name = some w) ∧
    ∀ name w, bound.get? name = some w → ∃ v, d.paramUnder layers name = some v := by
  have hdistinct : (Entries.names (settings.params.mergeSort
      fun a b => (compare a.1 b.1).isLE)).Nodup :=
    ((List.mergeSort_perm settings.params _).map Prod.fst).nodup_iff.mpr hs.distinct
  constructor
  · intro name v hv
    exact (get?_bind hdistinct h name).1 v ((mem_overrides_iff hs).mpr hv)
  · intro name w hw
    -- A parameter without a setting would be at its default, which is a setting.
    refine Option.ne_none_iff_exists'.mp fun hnone => ?_
    have hunset : name ∉ Entries.names (settings.params.mergeSort
        fun a b => (compare a.1 b.1).isLE) := by
      intro hmem
      obtain ⟨⟨n, v⟩, he, rfl⟩ := List.mem_map.mp hmem
      rw [mem_overrides_iff hs, hnone] at he
      cases he
    rw [(get?_bind hdistinct h name).2 hunset] at hw
    rw [paramUnder, hw, Option.or_eq_none_iff] at hnone
    cases hnone.2

/-- A rule can be bound exactly when it takes all its parameters. -/
theorem exists_activate_iff : (∃ active, d.activate settings = .ok active) ↔ ¬ d.Misfit layers := by
  constructor
  · rintro ⟨active, hactive⟩ ⟨name, v, hv, hnot⟩
    obtain ⟨bound, hbound, -⟩ := bind_eq_ok_iff.mp hactive
    obtain ⟨w, hw, -⟩ := (of_bind_overrides hs hbound).1 name v hv
    exact hnot (exists_coerce_iff.mp ⟨w, hw⟩)
  · intro hfits
    apply exists_activate
    rintro ⟨name, v⟩ he
    rw [exists_coerce_iff]
    refine Classical.byContradiction fun hnot => hfits ⟨name, v, ?_, hnot⟩
    rw [← hs.param, ← Entries.mem_iff_get? hs.distinct]
    exact he

theorem boundUnder_of_activate {active : Option ActiveRule}
    (h : d.activate settings = .ok active) :
    (active.isSome ↔ d.enabledUnder layers) ∧
      ∀ r ∈ active, r.descriptor = d ∧ r.BoundUnder layers := by
  obtain ⟨bound, hbound, hactive⟩ := bind_eq_ok_iff.mp h
  obtain ⟨hgiven, hset⟩ := of_bind_overrides hs hbound
  rw [hs.enabled, Option.getD_some] at hactive
  by_cases henabled : d.enabledUnder layers
  · rw [if_pos henabled] at hactive
    cases hactive
    refine ⟨by simp [henabled], ?_⟩
    rintro r ⟨⟩
    have hempty : (Entries.names ([] : Entries Value)).Nodup := List.nodup_nil
    have hdistinct : bound.names.Nodup :=
      nodup_names_bind (Entries.nodup_names_putAll hempty _) hbound
    refine ⟨rfl, henabled, ?_, hdistinct, ?_, ?_⟩
    · rw [hs.severity, Option.getD_some]
    · intro name
      rw [Entries.mem_names_iff]
      constructor
      · rintro ⟨w, hw⟩
        obtain ⟨v, hv⟩ := hset name w hw
        obtain ⟨w', hw', -⟩ := hgiven name v hv
        obtain ⟨p, hp, -⟩ := coerce_eq_ok_iff.mp hw'
        exact exists_param?_iff.mp ⟨p, hp⟩
      · intro hdeclared
        obtain ⟨v, hv⟩ := exists_defaults_iff.mpr hdeclared
        have hsome : ∃ v', d.paramUnder layers name = some v' := by
          rw [← Option.isSome_iff_exists, paramUnder, hv, Option.isSome_or]
          simp
        obtain ⟨v', hv'⟩ := hsome
        obtain ⟨w, -, hw⟩ := hgiven name v' hv'
        exact ⟨w, hw⟩
    · intro name w hw
      rw [Entries.mem_iff_get? hdistinct] at hw
      obtain ⟨v, hv⟩ := hset name w hw
      obtain ⟨w', hw', hget⟩ := hgiven name v hv
      cases hw.symm.trans hget
      obtain ⟨p, hp, hcoerce⟩ := coerce_eq_ok_iff.mp hw'
      exact ⟨p, v, hp, hv, hcoerce, Parameter.holds_of_coerce hcoerce⟩
  · rw [if_neg henabled] at hactive
    cases hactive
    simp [henabled]

end

end Descriptor

/-! ## Resolving a catalog -/

/-- A run that has the rules of a catalog that layers leave switched on, as the layers make them. -/
structure ActiveRules.BoundUnder (c : Catalog) (layers : List Layer) (rs : ActiveRules) : Prop where
  rules : ∀ d, (∃ r ∈ rs.rules, r.descriptor = d) ↔ d ∈ c.descriptors ∧ d.enabledUnder layers
  ascending : rs.rules.Pairwise fun a b => a.id < b.id
  bound : ∀ r ∈ rs.rules, r.BoundUnder layers

namespace Catalog

/-- The ids that well-formed entries name although no rule is registered under them. -/
def unknownIds (c : Catalog) (layers : List Layer) : Set String :=
  {id | Named layers id ∧ ¬ c.has id}

/-- The ids of the rules, switched on or off, that have a parameter which does not fit. -/
def misfitIds (c : Catalog) (layers : List Layer) : Set String :=
  {id | ∃ d ∈ c.descriptors, d.id = id ∧ d.Misfit layers}

/-- The rule with the least id of those that have a parameter which does not fit can be told of. -/
def Told (c : Catalog) (layers : List Layer) : Prop :=
  ∀ d ∈ c.descriptors, IsLeast (c.misfitIds layers) d.id → d.Told layers

theorem mem_sorted {c : Catalog} {d : Descriptor} : d ∈ c.sorted ↔ d ∈ c.descriptors :=
  (List.mergeSort_perm _ _).mem_iff

theorem sorted_ascending (c : Catalog) : c.sorted.Pairwise fun a b => a.id ≤ b.id := by
  refine (pairwise_mergeSort_cmp (compareOn Descriptor.id) c.descriptors).imp ?_
  intro a b hab
  exact (compare_isLE_iff_le _ _).mp hab

theorem firstUnknown?_laid (c : Catalog) (layers : List Layer) :
    match c.firstUnknown? (Configuration.laid c layers).rules.names with
    | some id => IsLeast (c.unknownIds layers) id
    | none => c.unknownIds layers = ∅ := by
  have hunknown : c.unknownIds layers =
      {k | ∃ id ∈ (Configuration.laid c layers).rules.names.mergeSort
        (fun a b => (compare a b).isLE), id = k ∧ ¬ c.has id} := by
    ext id
    simp only [unknownIds, Set.mem_ofPred_eq, (List.mergeSort_perm _ _).mem_iff,
      Configuration.mem_names_laid]
    constructor
    · rintro ⟨hnamed, hnot⟩
      exact ⟨id, Or.inr hnamed, rfl, hnot⟩
    · rintro ⟨id, hid, rfl, hnot⟩
      exact ⟨hid.resolve_left hnot, hnot⟩
  split
  · rename_i id hfirst
    unfold firstUnknown? at hfirst
    obtain ⟨hnot, before, after, hsplit, hbefore⟩ := List.find?_eq_some_iff_append.mp hfirst
    rw [hunknown]
    refine isLeast_of_first (f := fun id => id) ?_ hsplit ?_ (by simpa using hnot)
    · refine (pairwise_mergeSort_cmp compare _).imp ?_
      intro a b hab
      exact (compare_isLE_iff_le _ _).mp hab
    · intro id hid
      simpa using hbefore id hid
  · rename_i hfirst
    rw [hunknown, Set.eq_empty_iff_forall_notMem]
    rintro k ⟨id, hid, rfl, hnot⟩
    have := List.find?_eq_none.mp hfirst id hid
    simp [hnot] at this

/-! ## Activating rules one after the other -/

/-- A rule as a configuration makes it. -/
def activation (rules : Entries RuleConfig) (d : Descriptor) :
    Except (Stop CatalogFault) (Option ActiveRule) :=
  d.activate ((rules.get? d.id).getD {})

theorem activateAll_eq (rules : Entries RuleConfig) (ds : List Descriptor) :
    activateAll rules ds =
      (fun active => active.flatMap Option.toList) <$>
        ds.mapM (activation rules) := by
  induction ds with
  | nil => rfl
  | cons d ds ih =>
    rw [activateAll, ih, List.mapM_cons]
    change (activation rules d >>= _) = _
    cases activation rules d with
    | error fault => rfl
    | ok first =>
      cases ds.mapM (activation rules) with
      | error fault => rfl
      | ok rest => rfl

theorem activateAll_eq_error_iff {rules : Entries RuleConfig} {ds : List Descriptor}
    {stop : Stop CatalogFault} :
    activateAll rules ds = .error stop ↔ FirstFailure (activation rules) ds stop := by
  rw [activateAll_eq, ← mapM_eq_error_iff]
  cases ds.mapM (activation rules) <;> simp

theorem mem_activateAll_iff {rules : Entries RuleConfig} {ds : List Descriptor}
    {active : List ActiveRule} (h : activateAll rules ds = .ok active) {r : ActiveRule} :
    r ∈ active ↔ ∃ d ∈ ds, activation rules d = .ok (some r) := by
  rw [activateAll_eq] at h
  cases hmap : ds.mapM (activation rules) with
  | error fault =>
    rw [hmap] at h
    cases h
  | ok found =>
    rw [hmap] at h
    cases h
    simp [mem_mapM_iff hmap]

theorem ids_activateAll {rules : Entries RuleConfig} {ds : List Descriptor}
    {active : List ActiveRule} (h : activateAll rules ds = .ok active) :
    (active.map ActiveRule.id).Sublist (ds.map Descriptor.id) := by
  induction ds generalizing active with
  | nil =>
    cases h
    exact List.Sublist.refl _
  | cons d ds ih =>
    simp only [activateAll, bind_eq_ok_iff] at h
    obtain ⟨first, hfirst, rest, hrest, hactive⟩ := h
    cases hactive
    cases first with
    | none => exact (ih hrest).cons _
    | some r =>
      have hid : r.id = d.id := congrArg Descriptor.id (Descriptor.of_activate hfirst).1
      rw [List.map_cons, ← hid]
      exact (ih hrest).cons_cons _

/-- A rule of the catalog that a configuration switches on is in the run. -/
theorem mem_of_resolve {c : Catalog} {config : Configuration} {rs : ActiveRules}
    (h : c.resolve config = .ok rs) {d : Descriptor} (hd : d ∈ c.descriptors) {r : ActiveRule}
    (hactivate : d.activate ((config.rules.get? d.id).getD {}) = .ok (some r)) :
    r ∈ rs.rules := by
  unfold resolve at h
  split at h
  · cases h
  · obtain ⟨active, hactive, hrs⟩ := bind_eq_ok_iff.mp h
    cases hrs
    rw [(ActiveRules.rules_ofList_perm _ _).mem_iff, mem_activateAll_iff hactive]
    exact ⟨d, mem_sorted.mpr hd, hactivate⟩

/-- Settings of one rule resolve if its parameters fit, and leave the rule as they make it. -/
theorem exists_resolve_of_entry {c : Catalog} (hids : (c.descriptors.map Descriptor.id).Nodup)
    {d : Descriptor} (hd : d ∈ c.descriptors) {settings : RuleConfig}
    (hfit : ∀ e ∈ settings.params, ∃ w, d.coerce e.1 e.2 = .ok w) {r : ActiveRule}
    (hactivate : d.activate settings = .ok (some r)) :
    ∃ rs, c.resolve { rules := [(d.id, settings)] } = .ok rs ∧ r ∈ rs.rules := by
  have hget : Entries.get? d.id [(d.id, settings)] = some settings := by simp [Entries.get?]
  obtain ⟨rs, hrs⟩ : ∃ rs, c.resolve { rules := [(d.id, settings)] } = .ok rs := by
    apply exists_resolve
    · intro e he
      rw [List.mem_singleton.mp he, has_iff]
      exact ⟨d, hd, rfl⟩
    · intro d' hd' settings' hsettings' e he
      obtain ⟨hid, rfl⟩ := Prod.mk.inj (List.mem_singleton.mp (Entries.mem_of_get? hsettings'))
      rw [List.inj_on_of_nodup_map hids hd' hd hid]
      exact hfit e he
  refine ⟨rs, hrs, mem_of_resolve hrs hd ?_⟩
  rw [hget]
  exact hactivate

/-- One parameter of a rule that is switched on can be set to what fits, and has that value in the
run. -/
theorem exists_resolve_of_setting {c : Catalog} (hids : (c.descriptors.map Descriptor.id).Nodup)
    {d : Descriptor} (hd : d ∈ c.descriptors) (switch : Option Bool)
    (hswitch : switch.getD d.enabled = true) {name : String} {v w : Value}
    (h : d.coerce name v = .ok w) :
    ∃ rs, c.resolve { rules := [(d.id, { enabled := switch, params := [(name, v)] })] } = .ok rs ∧
      ⟨d, d.severity.name, d.defaults.put name w⟩ ∈ rs.rules := by
  refine exists_resolve_of_entry hids hd (by simpa using ⟨w, h⟩) ?_
  refine bind_eq_ok_iff.mpr ⟨d.defaults.put name w, ?_, ?_⟩
  · rw [List.mergeSort_singleton]
    exact bind_eq_ok_iff.mpr ⟨w, h, rfl⟩
  · rw [if_pos hswitch]
    rfl

/-- No two rules of a run have one id. -/
theorem nodup_ids_of_activateAll {c : Catalog} (hids : (c.descriptors.map Descriptor.id).Nodup)
    {rules : Entries RuleConfig} {active : List ActiveRule}
    (h : activateAll rules c.sorted = .ok active) : (active.map ActiveRule.id).Nodup := by
  refine (ids_activateAll h).nodup ?_
  exact ((List.mergeSort_perm c.descriptors _).map Descriptor.id).nodup_iff.mpr hids

theorem nodup_ids_of_resolve {c : Catalog} (hids : (c.descriptors.map Descriptor.id).Nodup)
    {config : Configuration} {rs : ActiveRules} (h : c.resolve config = .ok rs) :
    (rs.rules.map ActiveRule.id).Nodup := by
  unfold resolve at h
  split at h
  · cases h
  · obtain ⟨active, hactive, hrs⟩ := bind_eq_ok_iff.mp h
    cases hrs
    have hnodup := nodup_ids_of_activateAll hids hactive
    exact ((ActiveRules.rules_ofList_perm active _).map ActiveRule.id).nodup_iff.mpr hnodup

section

variable {c : Catalog} (hids : (c.descriptors.map Descriptor.id).Nodup) (layers : List Layer)
include hids

/-- The first rule that cannot be bound is the least one that has a misfit. -/
theorem activateAll_eq_error {stop : Stop CatalogFault}
    (h : activateAll (Configuration.laid c layers).rules c.sorted = .error stop) :
    (∃ fault, stop = .refused fault ∧ fault.IsInvalidParameter ∧
        IsLeast (c.misfitIds layers) fault.ruleId) ∧ c.Told layers ∨
      stop = .longInteger ∧ (c.misfitIds layers).Nonempty ∧ ¬ c.Told layers := by
  obtain ⟨before, d, after, hsplit, hbefore, hfails⟩ := activateAll_eq_error_iff.mp h
  have heffective : ∀ d ∈ c.sorted,
      (((Configuration.laid c layers).rules.get? d.id).getD {}).Effective d layers :=
    fun d hd => Configuration.effective_laid hids layers (mem_sorted.mp hd)
  have hd : d ∈ c.sorted := by simp [hsplit]
  have hleast : IsLeast (c.misfitIds layers) d.id := by
    have hfirst := isLeast_of_first (P := fun d => d.Misfit layers) c.sorted_ascending hsplit ?_ ?_
    · simpa only [misfitIds, mem_sorted] using hfirst
    · intro b hb
      have hb' : b ∈ c.sorted := by simp [hsplit, hb]
      exact (Descriptor.exists_activate_iff (heffective b hb')).mp (hbefore b hb)
    · refine Classical.byContradiction fun hfits => ?_
      obtain ⟨active, hactive⟩ := (Descriptor.exists_activate_iff (heffective d hd)).mpr hfits
      cases hactive.symm.trans hfails
  have htold : c.Told layers ↔ d.Told layers := by
    constructor
    · intro h
      exact h d (mem_sorted.mp hd) hleast
    · intro h d' hd' hleast'
      have hid : d'.id = d.id := String.le_antisymm (hleast'.2 hleast.1) (hleast.2 hleast'.1)
      rwa [List.inj_on_of_nodup_map hids hd' (mem_sorted.mp hd) hid]
  rw [htold]
  rcases Descriptor.activate_eq_error (heffective d hd) hfails with
    ⟨⟨fault, hstop, hinvalid, hid⟩, hd⟩ | ⟨hstop, hd⟩
  · exact Or.inl ⟨⟨fault, hstop, hinvalid, hid ▸ hleast⟩, hd⟩
  · exact Or.inr ⟨hstop, ⟨d.id, hleast.1⟩, hd⟩

theorem boundUnder_of_activateAll {active : List ActiveRule}
    (h : activateAll (Configuration.laid c layers).rules c.sorted = .ok active)
    (registered : List String) :
    c.misfitIds layers = ∅ ∧ (ActiveRules.ofList active registered).BoundUnder c layers := by
  have hstep : ∀ d ∈ c.descriptors, ∃ found,
      activation (Configuration.laid c layers).rules d = .ok found := by
    intro d hd
    rw [activateAll_eq] at h
    cases hmap : c.sorted.mapM (activation (Configuration.laid c layers).rules) with
    | error fault =>
      rw [hmap] at h
      cases h
    | ok found => exact exists_mapM_iff.mp ⟨found, hmap⟩ d (mem_sorted.mpr hd)
  have hmem : ∀ r, r ∈ (ActiveRules.ofList active registered).rules ↔ ∃ d ∈ c.descriptors,
      activation (Configuration.laid c layers).rules d = .ok (some r) := by
    intro r
    rw [(ActiveRules.rules_ofList_perm _ _).mem_iff, mem_activateAll_iff h]
    simp only [mem_sorted]
  have heffective := fun {d} => Configuration.effective_laid (d := d) hids layers
  refine ⟨?_, ?_, ?_, ?_⟩
  · rw [Set.eq_empty_iff_forall_notMem]
    rintro id ⟨d, hd, rfl, hmisfit⟩
    exact (Descriptor.exists_activate_iff (heffective hd)).mp (hstep d hd) hmisfit
  · intro d
    constructor
    · rintro ⟨r, hr, rfl⟩
      obtain ⟨d, hd, hactive⟩ := (hmem r).mp hr
      obtain ⟨hsome, hbound⟩ := Descriptor.boundUnder_of_activate (heffective hd) hactive
      rw [(hbound r rfl).1]
      exact ⟨hd, hsome.mp rfl⟩
    · rintro ⟨hd, henabled⟩
      obtain ⟨found, hfound⟩ := hstep d hd
      obtain ⟨hsome, hbound⟩ := Descriptor.boundUnder_of_activate (heffective hd) hfound
      obtain ⟨r, rfl⟩ := Option.isSome_iff_exists.mp (hsome.mpr henabled)
      exact ⟨r, (hmem r).mpr ⟨d, hd, hfound⟩, (hbound r rfl).1⟩
  · exact ActiveRules.rules_ofList_ascending (nodup_ids_of_activateAll hids h) registered
  · intro r hr
    obtain ⟨d, hd, hactive⟩ := (hmem r).mp hr
    exact ((Descriptor.boundUnder_of_activate (heffective hd) hactive).2 r rfl).2

/-- What becomes of layers over a catalog, in the four ways there are. -/
theorem resolve_laid_cases :
    (∃ id, c.resolve (Configuration.laid c layers) = .error (.refused (.unknownRule id)) ∧
      IsLeast (c.unknownIds layers) id) ∨
    c.unknownIds layers = ∅ ∧
      ((∃ fault, c.resolve (Configuration.laid c layers) = .error (.refused fault) ∧
        fault.IsInvalidParameter ∧ IsLeast (c.misfitIds layers) fault.ruleId ∧ c.Told layers) ∨
      c.resolve (Configuration.laid c layers) = .error .longInteger ∧
        (c.misfitIds layers).Nonempty ∧ ¬ c.Told layers ∨
      ∃ rs, c.resolve (Configuration.laid c layers) = .ok rs ∧
        c.misfitIds layers = ∅ ∧ rs.BoundUnder c layers) := by
  have hfirst := c.firstUnknown?_laid layers
  unfold resolve
  cases hunknown : c.firstUnknown? (Configuration.laid c layers).rules.names with
  | some id =>
    rw [hunknown] at hfirst
    exact Or.inl ⟨id, rfl, hfirst⟩
  | none =>
    rw [hunknown] at hfirst
    refine Or.inr ⟨hfirst, ?_⟩
    cases hall : activateAll (Configuration.laid c layers).rules c.sorted with
    | error stop =>
      rcases activateAll_eq_error hids layers hall with
        ⟨⟨fault, rfl, hinvalid, hleast⟩, htold⟩ | ⟨rfl, hlong⟩
      · exact Or.inl ⟨fault, rfl, hinvalid, hleast, htold⟩
      · exact Or.inr (Or.inl ⟨rfl, hlong⟩)
    | ok active => exact Or.inr (Or.inr ⟨_, rfl, boundUnder_of_activateAll hids layers hall _⟩)

theorem boundUnder_of_resolve {config : Configuration} {rs : ActiveRules}
    (hconfig : Configuration.ofLayers c layers = .ok config) (h : c.resolve config = .ok rs) :
    rs.BoundUnder c layers := by
  cases Configuration.eq_laid hconfig
  rcases resolve_laid_cases hids layers with ⟨id, hresult, -⟩ |
    ⟨-, ⟨fault, hresult, -⟩ | ⟨hresult, -⟩ | ⟨rs', hresult, -, hbound⟩⟩
  · cases hresult.symm.trans h
  · cases hresult.symm.trans h
  · cases hresult.symm.trans h
  · cases hresult.symm.trans h
    exact hbound

end

end Catalog

theorem ActiveRule.BoundUnder.get? {layers : List Layer} {r : ActiveRule} (h : r.BoundUnder layers)
    {name : String} {p : Parameter} {v w : Value} (hp : r.descriptor.param? name = some p)
    (hv : r.descriptor.paramUnder layers name = some v) (hw : p.coerce v = .ok w) :
    r.params.get? name = some w := by
  have hdeclared := (h.declared name).mpr (Descriptor.exists_param?_iff.mp ⟨p, hp⟩)
  obtain ⟨w', hw'⟩ := Entries.mem_names_iff.mp hdeclared
  obtain ⟨p', v', hp', hv', hcoerce, -⟩ := h.value name w' (Entries.mem_of_get? hw')
  cases hp.symm.trans hp'
  cases hv.symm.trans hv'
  cases hw.symm.trans hcoerce
  exact hw'

/-- Layers over a catalog are refused because of the least unregistered id that a well-formed entry
names, else because of the least rule, switched on or off, that has a parameter which it does not
declare or whose value is outside its domain. A value that cannot be written is not named, and the
attempt to do so ends the resolution. Else the layers give the rules that they leave switched on, by
ascending ids, each bound to its severity and to values for exactly the parameters it declares, all
of them in their domains. -/
theorem layers_resolve_or_name_the_least_culprit (ds : List Descriptor) (c : Catalog)
    (hc : Catalog.registerAll {} ds = .ok c) (layers : List Layer) (config : Configuration)
    (hconfig : Configuration.ofLayers c layers = .ok config) :
    ((∃ id, c.resolve config = .error (.refused (.unknownRule id))) ↔
      (c.unknownIds layers).Nonempty) ∧
    (∀ id, c.resolve config = .error (.refused (.unknownRule id)) →
      IsLeast (c.unknownIds layers) id) ∧
    ((∃ fault, c.resolve config = .error (.refused fault) ∧ fault.IsInvalidParameter) ↔
      c.unknownIds layers = ∅ ∧ (c.misfitIds layers).Nonempty ∧ c.Told layers) ∧
    (∀ fault, c.resolve config = .error (.refused fault) →
      fault.IsInvalidParameter → IsLeast (c.misfitIds layers) fault.ruleId) ∧
    (c.resolve config = .error .longInteger ↔
      c.unknownIds layers = ∅ ∧ (c.misfitIds layers).Nonempty ∧ ¬ c.Told layers) ∧
    ((∃ rs, c.resolve config = .ok rs) ↔
      c.unknownIds layers = ∅ ∧ c.misfitIds layers = ∅) ∧
    ∀ rs, c.resolve config = .ok rs → rs.BoundUnder c layers := by
  have hids : (c.descriptors.map Descriptor.id).Nodup :=
    Catalog.nodup_ids_of_registerAll (by simp) hc
  cases Configuration.eq_laid hconfig
  rcases Catalog.resolve_laid_cases hids layers with ⟨id, hresult, hleast⟩ |
    ⟨hknown, ⟨fault, hresult, hinvalid, hleast, htold⟩ | ⟨hresult, hnonempty, htold⟩ |
      ⟨rs, hresult, hfits, hbound⟩⟩
  · have hnonempty : (c.unknownIds layers).Nonempty := ⟨id, hleast.1⟩
    have hne := hnonempty.ne_empty
    simp [hresult, hnonempty, hne, hleast, CatalogFault.IsInvalidParameter]
  · have hnonempty : (c.misfitIds layers).Nonempty := ⟨fault.ruleId, hleast.1⟩
    have hne := hnonempty.ne_empty
    have hother : ∀ id, fault ≠ .unknownRule id := by
      rintro id rfl
      exact hinvalid
    simp [hresult, hknown, hnonempty, hne, hleast, hother, hinvalid, htold]
  · have hne := hnonempty.ne_empty
    simp [hresult, hknown, hnonempty, hne, htold]
  · simp [hresult, hknown, hfits, hbound]

/-- A layer that names two unregistered rules, and a third one in an entry that is malformed. It
also has a value that does not fit. -/
def strangeLayer : Layer where
  data := .map [(.str "rules", .map
    [(.str "zebra", .bool true), (.str "aardvark", .int 5), (.str "mole", .str "error"),
      (.str "body-size-limit", .map [(.str "maxBodyLines", .int 0)])])]
  source := "strange.yml"

theorem strangeLayer_resolves_to_mole :
    ∃ config, Catalog.registerAll {} standardRules = .ok .standard ∧
      Configuration.ofLayers .standard [strangeLayer] = .ok config ∧
      Catalog.standard.resolve config = .error (.refused (.unknownRule "mole")) := by
  have hc : Catalog.registerAll {} standardRules = .ok .standard := rfl
  have hconfig : Configuration.ofLayers .standard [strangeLayer] =
      .ok (Configuration.laid .standard [strangeLayer]) := Configuration.ofLayers_eq _ _
  obtain ⟨hunknown, hleast, -⟩ :=
    layers_resolve_or_name_the_least_culprit standardRules .standard hc [strangeLayer] _ hconfig
  have hentries : strangeLayer.entries =
      [(.str "zebra", .bool true), (.str "aardvark", .int 5), (.str "mole", .str "error"),
        (.str "body-size-limit", .map [(.str "maxBodyLines", .int 0)])] := rfl
  have hmole : "mole" ∈ Catalog.unknownIds .standard [strangeLayer] :=
    ⟨⟨strangeLayer, by simp, (.str "mole", .str "error"), by simp [hentries], rfl, rfl⟩, by decide⟩
  obtain ⟨id, hid⟩ := hunknown.mpr ⟨"mole", hmole⟩
  obtain ⟨⟨⟨l, hl, e, he, rfl, hfault⟩, hnot⟩, hlower⟩ := hleast id hid
  cases List.mem_singleton.mp hl
  simp only [hentries, List.mem_cons, List.not_mem_nil, or_false] at he
  refine ⟨_, hc, hconfig, ?_⟩
  rcases he with rfl | rfl | rfl | rfl
  · exact absurd (hlower hmole) (by decide)
  · cases hfault
  · exact hid
  · exact absurd rfl hnot

end ComponentLint

-- The defaults of declared rules. A configuration that says nothing leaves
-- every rule as it was declared. The defaults spelled out as settings do the
-- same where they lie in their own domains; where one does not, and nothing
-- keeps it from being declared, they are refused.
import ComponentLint.Proofs.ResolvedRules
import ComponentLint.Proofs.RuleIds
import ComponentLint.Proofs.WrittenForests

namespace ComponentLint

/-! ## Declared parameters -/

namespace Parameter

variable {p : Parameter}

/-- A parameter that was declared. -/
def Declared (p : Parameter) : Prop :=
  ∃ name default domain minimum description,
    declare name default domain minimum description = .ok p

/-- The default of a list of names lies in its domain, since it is cleaned up. -/
theorem Declared.holds_names (h : p.Declared) (hp : p.domain = .names) : p.Holds p.default := by
  have hcleaned : ∃ parts, p.default = namesValue (cleanNames parts) := by
    obtain ⟨name, default, domain, minimum, description, h⟩ := h
    unfold declare at h
    split at h
    · cases h
    · split at h
      · cases h
        exact ⟨_, rfl⟩
      · split at h
        · obtain ⟨texts, -, h⟩ := bind_eq_ok_iff.mp h
          cases h
          exact ⟨texts, rfl⟩
        · cases h
    · rename_i hother _
      cases h
      exact absurd hp hother
  obtain ⟨parts, hdefault⟩ := hcleaned
  unfold Holds
  rw [hp, hdefault]
  exact ⟨_, rfl, clean_cleanNames parts⟩

theorem Declared.accepts_iff (h : p.Declared) : p.Accepts p.default ↔ p.Holds p.default := by
  by_cases hp : p.domain = .names
  · have hholds := h.holds_names hp
    refine iff_of_true ?_ hholds
    exact (exists_coerce_iff p p.default).mp ⟨_, coerce_eq_self_iff.mpr hholds⟩
  · unfold Accepts Holds
    cases hdomain : p.domain with
    | int => exact Iff.rfl
    | text => exact Iff.rfl
    | names => exact absurd hdomain hp

end Parameter

/-! ## The defaults of a rule -/

namespace Descriptor

variable {d : Descriptor}

/-- Every default stays as it is when it is put into the domain of the parameter. -/
def Settled (d : Descriptor) : Prop :=
  ∀ name v, d.defaults.get? name = some v → d.coerce name v = .ok v

/-- The rule as it was declared. -/
def atDefaults (d : Descriptor) : ActiveRule := ⟨d, d.severity.name, d.defaults⟩

theorem paramUnder_nil (d : Descriptor) (name : String) :
    d.paramUnder [] name = d.defaults.get? name := rfl

/-- Setting parameters to defaults that are settled changes nothing. -/
theorem bind_defaults (h : d.Settled) {values : Entries Value}
    (hvalues : ∀ e ∈ values, d.defaults.get? e.1 = some e.2) :
    d.bind d.defaults values = .ok d.defaults := by
  induction values with
  | nil => rfl
  | cons e rest ih =>
    obtain ⟨name, v⟩ := e
    obtain ⟨hv, hrest⟩ := List.forall_mem_cons.mp hvalues
    rw [bind, h name v hv]
    change d.bind (d.defaults.put name v) rest = _
    rw [Entries.put_of_get? hv, ih hrest]

theorem activate_empty (d : Descriptor) :
    d.activate {} = .ok (if d.enabled then some d.atDefaults else none) := by
  unfold activate
  rw [show ({} : RuleConfig).params = [] from rfl, List.mergeSort_nil]
  cases hd : d.enabled <;> rfl

/-- Defaults that fit, and are settled if the rule is switched on, come to nothing as settings. -/
theorem activate_defaults {settings : RuleConfig} (hs : settings.Effective d [])
    (hfits : ¬ d.Misfit []) (h : d.enabled = true → d.Settled) :
    d.activate settings = d.activate {} := by
  rw [activate_empty]
  cases henabled : d.enabled with
  | true =>
    have hbind := bind_defaults (h henabled) fun e he =>
      paramUnder_nil d e.1 ▸ (mem_overrides_iff (v := e.2) hs).mp he
    have hswitch : settings.enabled = some d.enabled := hs.enabled
    have hseverity : settings.severity = some d.severity.name := hs.severity
    rw [activate, hbind, hswitch, hseverity, henabled]
    rfl
  | false =>
    obtain ⟨active, hactive⟩ := (exists_activate_iff hs).mpr hfits
    have hnone : ¬ active.isSome := by
      rw [(boundUnder_of_activate hs hactive).1]
      exact Bool.eq_false_iff.mp henabled
    rw [hactive, Option.not_isSome_iff_eq_none.mp hnone]
    rfl

section

variable (hnames : (d.params.map Parameter.name).Nodup)
include hnames

theorem param?_of_mem {p : Parameter} (hp : p ∈ d.params) : d.param? p.name = some p := by
  obtain ⟨q, hq⟩ := exists_param?_iff.mpr ⟨p, hp, rfl⟩
  have hname : q.name = p.name := by simpa using List.find?_some hq
  rw [hq, List.inj_on_of_nodup_map hnames (List.mem_of_find?_eq_some hq) hp hname]

theorem defaults_eq_some_iff {name : String} {v : Value} :
    d.defaults.get? name = some v ↔ ∃ p ∈ d.params, p.name = name ∧ p.default = v := by
  have hdistinct : Entries.names (d.params.map fun p => (p.name, p.default)) =
      d.params.map Parameter.name := by simp [Entries.names]
  have hnodup := hdistinct ▸ hnames
  rw [defaults, Entries.ofList_of_nodup hnodup, ← Entries.mem_iff_get? hnodup]
  simp

/-- Where the names of the parameters are distinct, the defaults are settled if each of them lies in
its own domain. -/
theorem settled_iff : d.Settled ↔ ∀ p ∈ d.params, p.Holds p.default := by
  unfold Settled
  constructor
  · intro h p hp
    obtain ⟨q, hq, hcoerce⟩ := coerce_eq_ok_iff.mp
      (h _ _ ((defaults_eq_some_iff hnames).mpr ⟨p, hp, rfl, rfl⟩))
    cases hq.symm.trans (param?_of_mem hnames hp)
    exact Parameter.coerce_eq_self_iff.mp hcoerce
  · intro h name v hv
    obtain ⟨p, hp, rfl, rfl⟩ := (defaults_eq_some_iff hnames).mp hv
    exact coerce_eq_ok_iff.mpr
      ⟨p, param?_of_mem hnames hp, Parameter.coerce_eq_self_iff.mpr (h p hp)⟩

theorem misfit_nil_iff (hdeclared : ∀ p ∈ d.params, p.Declared) :
    d.Misfit [] ↔ ∃ p ∈ d.params, ¬ p.Holds p.default := by
  constructor
  · rintro ⟨name, v, hv, hnot⟩
    obtain ⟨p, hp, rfl, rfl⟩ := (defaults_eq_some_iff hnames).mp hv
    refine ⟨p, hp, fun hholds => hnot ⟨p, param?_of_mem hnames hp, ?_⟩⟩
    exact (hdeclared p hp).accepts_iff.mpr hholds
  · rintro ⟨p, hp, hnot⟩
    refine ⟨p.name, p.default, (defaults_eq_some_iff hnames).mpr ⟨p, hp, rfl, rfl⟩, ?_⟩
    rintro ⟨q, hq, haccepts⟩
    cases hq.symm.trans (param?_of_mem hnames hp)
    exact hnot ((hdeclared p hp).accepts_iff.mp haccepts)

end

end Descriptor

/-! ## The defaults of a catalog -/

/-- A run that has the rules that are switched on by default, by ascending ids, all of them as they
were declared. -/
structure ActiveRules.AtDefaults (ds : List Descriptor) (rs : ActiveRules) : Prop where
  rules : ∀ r, r ∈ rs.rules ↔ ∃ d ∈ ds, d.enabled = true ∧ r = d.atDefaults
  ascending : rs.rules.Pairwise fun a b => a.id < b.id

namespace Catalog

theorem activateAll_congr {rules rules' : Entries RuleConfig} {ds : List Descriptor}
    (h : ∀ d ∈ ds, activation rules d = activation rules' d) :
    activateAll rules ds = activateAll rules' ds := by
  induction ds with
  | nil => rfl
  | cons d ds ih =>
    obtain ⟨hd, hds⟩ := List.forall_mem_cons.mp h
    unfold activation at hd
    rw [activateAll, activateAll, hd, ih hds]

theorem unknownIds_nil (c : Catalog) : c.unknownIds [] = ∅ := by
  rw [Set.eq_empty_iff_forall_notMem]
  rintro id ⟨⟨l, hl, -⟩, -⟩
  cases hl

theorem firstUnknown?_nil (c : Catalog) : c.firstUnknown? [] = none := by
  rw [firstUnknown?, List.mergeSort_nil]
  rfl

section

variable {c : Catalog} (hids : (c.descriptors.map Descriptor.id).Nodup)
include hids

/-- A configuration that says nothing leaves every rule as it was declared. -/
theorem exists_resolve_empty : ∃ rs, c.resolve {} = .ok rs ∧ rs.AtDefaults c.descriptors := by
  have hactivate : ∀ d ∈ c.sorted, ∃ active,
      d.activate ((Entries.get? d.id []).getD {}) = .ok active :=
    fun d _ => ⟨_, d.activate_empty⟩
  obtain ⟨active, hactive⟩ := exists_activateAll hactivate
  have hnone : c.firstUnknown? ({} : Configuration).rules.names = none := c.firstUnknown?_nil
  have hnodup := nodup_ids_of_activateAll hids hactive
  refine ⟨_, ?_, ?_,
    ActiveRules.rules_ofList_ascending hnodup (c.descriptors.map Descriptor.id)⟩
  · rw [resolve, hnone]
    exact bind_eq_ok_iff.mpr ⟨active, hactive, rfl⟩
  · intro r
    rw [(ActiveRules.rules_ofList_perm _ _).mem_iff, mem_activateAll_iff hactive]
    refine exists_congr fun d => and_congr mem_sorted ?_
    change d.activate {} = _ ↔ _
    rw [d.activate_empty]
    cases d.enabled <;> simp [eq_comm]

/-- Defaults that fit and are settled, spelled out as settings, leave every rule as it was
declared. -/
theorem resolve_laid_nil (hfits : ∀ d ∈ c.descriptors, ¬ d.Misfit [])
    (h : ∀ d ∈ c.descriptors, d.enabled = true → d.Settled) :
    c.resolve (Configuration.laid c []) = c.resolve {} := by
  have hnone : c.firstUnknown? (Configuration.laid c []).rules.names = none := by
    have hfirst := c.firstUnknown?_laid []
    split at hfirst
    · rw [unknownIds_nil] at hfirst
      exact absurd hfirst.1 (Set.notMem_empty _)
    · assumption
  have hempty : c.firstUnknown? ({} : Configuration).rules.names = none := c.firstUnknown?_nil
  rw [resolve, resolve, hnone, hempty, activateAll_congr fun d hd => ?_]
  have hd := mem_sorted.mp hd
  exact Descriptor.activate_defaults (Configuration.effective_laid hids [] hd) (hfits d hd)
    (h d hd)

/-- Rules that the spelled-out defaults leave as they were declared have defaults that fit, and are
settled if they are switched on. -/
theorem settled_of_resolve_laid_nil {rs : ActiveRules} (hrs : rs.AtDefaults c.descriptors)
    (h : c.resolve (Configuration.laid c []) = .ok rs) :
    (∀ d ∈ c.descriptors, ¬ d.Misfit []) ∧
      ∀ d ∈ c.descriptors, d.enabled = true → d.Settled := by
  rcases resolve_laid_cases hids [] with ⟨id, hresult, -⟩ |
    ⟨-, ⟨fault, hresult, -⟩ | ⟨hresult, -⟩ | ⟨rs', hresult, hfits, hbound⟩⟩
  · cases hresult.symm.trans h
  · cases hresult.symm.trans h
  · cases hresult.symm.trans h
  · cases hresult.symm.trans h
    refine ⟨fun d hd hmisfit => ?_, fun d hd henabled name w hw => ?_⟩
    · have hid : d.id ∈ c.misfitIds [] := ⟨d, hd, rfl, hmisfit⟩
      rw [hfits] at hid
      exact hid
    · have hr := (hrs.rules d.atDefaults).mpr ⟨d, hd, henabled, rfl⟩
      obtain ⟨p, v, hp, hv, hcoerce, -⟩ :=
        (hbound.bound d.atDefaults hr).value name w (Entries.mem_of_get? hw)
      cases hv.symm.trans hw
      exact Descriptor.coerce_eq_ok_iff.mpr ⟨p, hp, hcoerce⟩

/-- A default that does not fit is refused, because of the least rule that has one, unless it cannot
be told of. -/
theorem refused_of_misfit {d : Descriptor} (hd : d ∈ c.descriptors) (hmisfit : d.Misfit []) :
    (c.Told [] → ∃ fault, c.resolve (Configuration.laid c []) = .error (.refused fault) ∧
      fault.IsInvalidParameter ∧ IsLeast (c.misfitIds []) fault.ruleId) ∧
    (¬ c.Told [] → c.resolve (Configuration.laid c []) = .error .longInteger) := by
  have hid : d.id ∈ c.misfitIds [] := ⟨d, hd, rfl, hmisfit⟩
  rcases resolve_laid_cases hids [] with ⟨id, -, hleast⟩ |
    ⟨-, ⟨fault, hresult, hinvalid, hleast, htold⟩ | ⟨hresult, -, huntold⟩ | ⟨rs, -, hfits, -⟩⟩
  · rw [unknownIds_nil] at hleast
    exact absurd hleast.1 (Set.notMem_empty _)
  · exact ⟨fun _ => ⟨fault, hresult, hinvalid, hleast⟩, fun huntold => absurd htold huntold⟩
  · exact ⟨fun htold => absurd htold huntold, fun _ => hresult⟩
  · rw [hfits] at hid
    exact absurd hid (Set.notMem_empty _)

end

end Catalog

/-- Over a catalog of declared rules, a configuration that says nothing gives the rules that are
switched on by default, as they were declared. So do the defaults spelled out as settings, exactly
when all of them fit and those of the rules that are switched on are settled. Where the names of the
parameters are distinct, that is when every default lies in its own domain; else the settings are
refused because of the least rule that has a default outside, as far as that default can be told. -/
theorem defaults_stand_where_they_lie_in_their_domains (ds : List Descriptor) (c : Catalog)
    (hdeclared : ∀ d ∈ ds, d.Declared ∧ ∀ p ∈ d.params, p.Declared)
    (hc : Catalog.registerAll {} ds = .ok c) :
    ∃ config rs, Configuration.ofLayers c [] = .ok config ∧
      c.resolve {} = .ok rs ∧ rs.AtDefaults ds ∧
      (c.resolve config = .ok rs ↔
        (∀ d ∈ ds, ¬ d.Misfit []) ∧ ∀ d ∈ ds, d.enabled = true → d.Settled) ∧
      ((∀ d ∈ ds, (d.params.map Parameter.name).Nodup) →
        (c.resolve config = .ok rs ↔ ∀ d ∈ ds, ∀ p ∈ d.params, p.Holds p.default) ∧
        ((¬ ∀ d ∈ ds, ∀ p ∈ d.params, p.Holds p.default) →
          (c.Told [] → ∃ fault, c.resolve config = .error (.refused fault) ∧
            fault.IsInvalidParameter ∧
            IsLeast {id | ∃ d ∈ ds, d.id = id ∧ ∃ p ∈ d.params, ¬ p.Holds p.default}
              fault.ruleId) ∧
          (¬ c.Told [] → c.resolve config = .error .longInteger))) := by
  have hids : (c.descriptors.map Descriptor.id).Nodup :=
    Catalog.nodup_ids_of_registerAll (by simp) hc
  have hds : c.descriptors = ds := Catalog.descriptors_of_registerAll hc
  obtain ⟨rs, hrs, hdefaults⟩ := Catalog.exists_resolve_empty hids
  have hsame : c.resolve (Configuration.laid c []) = .ok rs ↔
      (∀ d ∈ ds, ¬ d.Misfit []) ∧ ∀ d ∈ ds, d.enabled = true → d.Settled := by
    rw [← hds]
    constructor
    · exact Catalog.settled_of_resolve_laid_nil hids hdefaults
    · rintro ⟨hfits, hsettled⟩
      rw [Catalog.resolve_laid_nil hids hfits hsettled, hrs]
  refine ⟨_, rs, Configuration.ofLayers_eq c [], hrs, hds ▸ hdefaults, hsame, fun hnames => ?_⟩
  have hmisfit : ∀ d ∈ ds, d.Misfit [] ↔ ∃ p ∈ d.params, ¬ p.Holds p.default :=
    fun d hd => Descriptor.misfit_nil_iff (hnames d hd) (hdeclared d hd).2
  constructor
  · rw [hsame]
    constructor
    · rintro ⟨hfits, -⟩ d hd p hp
      exact Classical.byContradiction fun hnot => hfits d hd ((hmisfit d hd).mpr ⟨p, hp, hnot⟩)
    · intro hholds
      refine ⟨fun d hd hnot => ?_, fun d hd _ => ?_⟩
      · obtain ⟨p, hp, hout⟩ := (hmisfit d hd).mp hnot
        exact hout (hholds d hd p hp)
      · exact (Descriptor.settled_iff (hnames d hd)).mpr (hholds d hd)
  · intro hout
    push Not at hout
    obtain ⟨d, hd, p, hp, hout⟩ := hout
    have hset : c.misfitIds [] =
        {id | ∃ d ∈ ds, d.id = id ∧ ∃ p ∈ d.params, ¬ p.Holds p.default} := by
      ext id
      rw [Catalog.misfitIds, hds]
      exact exists_congr fun d => and_congr_right fun hd => and_congr_right fun _ => hmisfit d hd
    rw [← hset]
    exact Catalog.refused_of_misfit hids (hds ▸ hd) ((hmisfit d hd).mpr ⟨p, hp, hout⟩)

/-- A draft of a rule whose only parameter is an integer from 1 on. -/
def limitDraft (default : Int) : RuleDraft := draftOf "line-limit" [.ofInt "limit" default 1]

/-- Such a rule can be declared, whatever its default. -/
theorem exists_declare_limitDraft (default : Int) :
    ∃ d, Descriptor.declare (limitDraft default) = .ok d ∧
      d.params = [.ofInt "limit" default 1] ∧ ∀ p ∈ d.params, p.Declared := by
  have hid : isRuleId "line-limit" = true := by decide
  obtain ⟨d, hd⟩ := Descriptor.exists_declare
    (soundButId_draftOf "line-limit" [.ofInt "limit" default 1]) hid
  have hparams : d.params = [.ofInt "limit" default 1] := (Descriptor.of_declare hd).2.2
  refine ⟨d, hd, hparams, ?_⟩
  rw [hparams, List.forall_mem_singleton]
  exact ⟨"limit", .int default, "int", some 1, "", rfl⟩

theorem limit_stands_at_its_default :
    ∃ d c config rs, Descriptor.declare (limitDraft 5) = .ok d ∧
      Catalog.registerAll {} [d] = .ok c ∧ Configuration.ofLayers c [] = .ok config ∧
      c.resolve config = .ok rs ∧ rs.AtDefaults [d] := by
  obtain ⟨d, hd, hparams, hdeclared⟩ := exists_declare_limitDraft 5
  obtain ⟨config, rs, hconfig, -, hdefaults, -, hsame⟩ :=
    defaults_stand_where_they_lie_in_their_domains [d] { descriptors := [d] }
      (by simpa using ⟨⟨_, hd⟩, hdeclared⟩) rfl
  refine ⟨d, _, config, rs, hd, rfl, hconfig, ?_, hdefaults⟩
  refine (hsame (by simp [hparams])).1.mpr ?_
  simp [hparams, Parameter.Holds, Parameter.ofInt]

/-- Not everything that can be declared resolves: a default may be below its own minimum. -/
theorem default_below_its_minimum_is_refused :
    ¬ ∀ (ds : List Descriptor) (c : Catalog),
      (∀ d ∈ ds, d.Declared ∧ ∀ p ∈ d.params, p.Declared) →
      Catalog.registerAll {} ds = .ok c →
      ∃ config rs, Configuration.ofLayers c [] = .ok config ∧ c.resolve config = .ok rs := by
  intro h
  obtain ⟨d, hd, hparams, hdeclared⟩ := exists_declare_limitDraft 0
  obtain ⟨config, rs, hconfig, hrs⟩ :=
    h [d] { descriptors := [d] } (by simpa using ⟨⟨_, hd⟩, hdeclared⟩) rfl
  cases Configuration.eq_laid hconfig
  have hmisfit : d.Misfit [] := by
    rw [Descriptor.misfit_nil_iff (by simp [hparams]) hdeclared]
    simp [hparams, Parameter.Holds, Parameter.ofInt]
  obtain ⟨htold, huntold⟩ := Catalog.refused_of_misfit (c := { descriptors := [d] }) (by simp)
    List.mem_cons_self hmisfit
  by_cases h : Catalog.Told { descriptors := [d] } []
  · obtain ⟨fault, hfault, -⟩ := htold h
    cases hrs.symm.trans hfault
  · cases hrs.symm.trans (huntold h)

end ComponentLint

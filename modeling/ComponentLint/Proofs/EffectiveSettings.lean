-- What layers make of the rules of a catalog: which rules a configuration
-- has, and the settings that each of them ends up with.
import ComponentLint.Proofs.LayeredSettings

namespace ComponentLint

/-! ## Catalogs -/

namespace Catalog

theorem has_iff {c : Catalog} {id : String} : c.has id ↔ ∃ d ∈ c.descriptors, d.id = id := by
  simp [has, find?]

/-- Rules that are registered one after the other have ids of their own. -/
theorem nodup_ids_of_registerAll {c c' : Catalog} {ds : List Descriptor}
    (hids : (c.descriptors.map Descriptor.id).Nodup) (h : c.registerAll ds = .ok c') :
    (c'.descriptors.map Descriptor.id).Nodup := by
  induction ds generalizing c with
  | nil =>
    cases h
    exact hids
  | cons d ds ih =>
    obtain ⟨c₁, hc₁, hrest⟩ := bind_eq_ok_iff.mp h
    refine ih ?_ hrest
    unfold register at hc₁
    split at hc₁
    · cases hc₁
    · rename_i hnew
      cases hc₁
      rw [List.map_append, List.nodup_append]
      refine ⟨hids, by simp, ?_⟩
      intro id hid id' hid' heq
      obtain ⟨d', hd', rfl⟩ := List.mem_map.mp hid
      apply hnew
      rw [has_iff]
      exact ⟨d', hd', by simpa [heq] using hid'⟩

/-- The standard rules have ids of their own. -/
theorem nodup_standard_ids : (standard.descriptors.map Descriptor.id).Nodup := by decide

theorem find?_id {c : Catalog} (hids : (c.descriptors.map Descriptor.id).Nodup) {d : Descriptor}
    (hd : d ∈ c.descriptors) : c.find? d.id = some d := by
  unfold find?
  cases hfind : c.descriptors.find? (fun d' => d'.id == d.id) with
  | none => exact absurd (List.find?_eq_none.mp hfind d hd) (by simp)
  | some d' =>
    have hid : d'.id = d.id := by simpa using List.find?_some hfind
    rw [List.inj_on_of_nodup_map hids (List.mem_of_find?_eq_some hfind) hd hid]

end Catalog

/-! ## What layers say of a rule -/

/-- Whether a well-formed entry of a layer is for a rule; keys are compared by their text. -/
def Named (layers : List Layer) (id : String) : Prop :=
  ∃ l ∈ layers, ∃ e ∈ l.entries, e.1.words = id ∧ RuleConfig.fault? e.2 = none

namespace Descriptor

variable (d : Descriptor) (layers : List Layer)

/-- Whether layers leave a rule switched on. -/
def enabledUnder : Bool :=
  (lastWord RuleConfig.givenEnabled (wellFormedFor d.id layers)).getD d.enabled

/-- The severity of a rule under layers. -/
def severityUnder : Severity :=
  (lastWord RuleConfig.givenSeverity (wellFormedFor d.id layers)).getD d.severity

/-- The value of a parameter under layers, declared or not. -/
def paramUnder (name : String) : Option Value :=
  (lastWord (RuleConfig.givenParam name) (wellFormedFor d.id layers)).or (d.defaults.get? name)

end Descriptor

/-- Settings that are those of a rule under layers. -/
structure RuleConfig.Effective (d : Descriptor) (layers : List Layer) (settings : RuleConfig) :
    Prop where
  enabled : settings.enabled = some (d.enabledUnder layers)
  severity : settings.severity = some (d.severityUnder layers).name
  param : ∀ name, settings.params.get? name = d.paramUnder layers name
  distinct : settings.params.names.Nodup

/-! ## What a configuration holds -/

theorem mem_names_applyEntry (rules : Entries RuleConfig) (e : Value × Value) (id : String) :
    id ∈ (applyEntry rules e).names ↔ id ∈ rules.names ∨ isFor id e := by
  unfold applyEntry isFor
  cases RuleConfig.fault? e.2 with
  | some cause => simp
  | none =>
    simp only [Entries.names_put]
    by_cases hmem : e.1.words ∈ rules.names
    · simp only [if_pos hmem, Option.isNone_none, Bool.and_true, beq_iff_eq]
      exact ⟨Or.inl, fun h => h.elim (fun h => h) fun h => h ▸ hmem⟩
    · rw [if_neg hmem, List.mem_append, List.mem_singleton]
      simp [@eq_comm _ id]

theorem mem_names_foldl_applyEntry (entries : List (Value × Value)) (rules : Entries RuleConfig)
    (id : String) :
    id ∈ (entries.foldl applyEntry rules).names ↔ id ∈ rules.names ∨ ∃ e ∈ entries, isFor id e := by
  induction entries generalizing rules with
  | nil => simp
  | cons e entries ih =>
    rw [List.foldl_cons, ih, mem_names_applyEntry]
    simp [or_assoc]

theorem nodup_params_applyEntry {rules : Entries RuleConfig}
    (h : ∀ e ∈ rules, e.2.params.names.Nodup) (e : Value × Value) :
    ∀ e' ∈ applyEntry rules e, e'.2.params.names.Nodup := by
  unfold applyEntry
  split
  · intro e' he'
    rcases Entries.mem_put he' with rfl | he'
    · refine Entries.nodup_names_putAll ?_ _
      cases hbase : rules.get? e.1.words with
      | none => exact List.nodup_nil
      | some base => exact h _ (Entries.mem_of_get? hbase)
    · exact h e' he'
  · exact h

namespace Configuration

theorem mem_names_laid (c : Catalog) (layers : List Layer) (id : String) :
    id ∈ (laid c layers).rules.names ↔ c.has id ∨ Named layers id := by
  unfold laid
  dsimp only
  rw [mem_names_foldl_applyEntry]
  refine or_congr ?_ ?_
  · rw [Entries.mem_names_iff, get?_ofCatalog, Catalog.has]
    cases c.find? id <;> simp
  · constructor
    · rintro ⟨e, he, hfor⟩
      obtain ⟨l, hl, he⟩ := List.mem_flatMap.mp he
      simp only [isFor, Bool.and_eq_true, beq_iff_eq, Option.isNone_iff_eq_none] at hfor
      exact ⟨l, hl, e, he, hfor⟩
    · rintro ⟨l, hl, e, he, hid, hfault⟩
      exact ⟨e, List.mem_flatMap.mpr ⟨l, hl, he⟩, by simp [isFor, hid, hfault]⟩

theorem nodup_params_laid (c : Catalog) (layers : List Layer) :
    ∀ e ∈ (laid c layers).rules, e.2.params.names.Nodup := by
  refine List.foldlRecOn (motive := fun rules : Entries RuleConfig =>
    ∀ e ∈ rules, e.2.params.names.Nodup) _ _ ?_ fun rules hrules e _ =>
      nodup_params_applyEntry hrules e
  intro e he
  obtain ⟨d, -, rfl⟩ := List.mem_map.mp he
  have hempty : (Entries.names ([] : Entries Value)).Nodup := List.nodup_nil
  exact Entries.nodup_names_putAll hempty _

/-- What a configuration holds of a registered rule is what the layers say of it. -/
theorem effective_laid {c : Catalog} (hids : (c.descriptors.map Descriptor.id).Nodup)
    (layers : List Layer) {d : Descriptor} (hd : d ∈ c.descriptors) :
    (((laid c layers).rules.get? d.id).getD {}).Effective d layers := by
  have hfollows := follows_laid c layers
  have henabled := hfollows.enabled d.id
  have hseverity := hfollows.severity d.id
  have hparam := hfollows.param d.id
  rw [Catalog.find?_id hids hd] at henabled hseverity
  simp only [Catalog.find?_id hids hd] at hparam
  cases hget : (laid c layers).rules.get? d.id with
  | none =>
    rw [hget] at henabled
    cases hlast : lastWord RuleConfig.givenEnabled (wellFormedFor d.id layers) <;>
      simp [hlast] at henabled
  | some settings =>
    simp only [hget, Option.bind_some, Option.map_some] at henabled hseverity hparam
    refine ⟨?_, ?_, hparam, nodup_params_laid c layers _ (Entries.mem_of_get? hget)⟩
    · rw [Option.getD_some, henabled, Descriptor.enabledUnder]
      cases lastWord RuleConfig.givenEnabled (wellFormedFor d.id layers) <;> rfl
    · rw [Option.getD_some, hseverity, Descriptor.severityUnder]
      cases lastWord RuleConfig.givenSeverity (wellFormedFor d.id layers) <;> rfl

end Configuration

end ComponentLint

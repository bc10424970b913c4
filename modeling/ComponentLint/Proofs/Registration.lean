-- Registering rules. An id belongs to the rule that was registered under it
-- first, and whoever comes later is refused. The order of registration shows
-- nowhere: not in the catalog, the configurations and the runs over it, and
-- not in a report.
import ComponentLint.Proofs.EffectiveSettings
import ComponentLint.Proofs.RuleIsolation
import ComponentLint.Report.Aggregate

namespace ComponentLint

/-! ## Calls one after the other -/

namespace Catalog

/-- The catalog after a call to register a rule, which may be refused. -/
def afterCall (c : Catalog) (d : Descriptor) : Catalog :=
  match c.register d with
  | .ok c' => c'
  | .error _ => c

/-- The catalog after several calls. -/
def afterCalls (c : Catalog) (calls : List Descriptor) : Catalog := calls.foldl afterCall c

theorem register_of_has {c : Catalog} {d : Descriptor} (h : c.has d.id) :
    c.register d = .error (.duplicate d.id) :=
  if_pos h

theorem register_of_not_has {c : Catalog} {d : Descriptor} (h : ¬ c.has d.id) :
    c.register d = .ok ⟨c.descriptors ++ [d]⟩ :=
  if_neg h

theorem afterCall_of_has {c : Catalog} {d : Descriptor} (h : c.has d.id) : c.afterCall d = c := by
  unfold afterCall
  rw [register_of_has h]

theorem afterCall_of_not_has {c : Catalog} {d : Descriptor} (h : ¬ c.has d.id) :
    c.afterCall d = ⟨c.descriptors ++ [d]⟩ := by
  unfold afterCall
  rw [register_of_not_has h]

/-- A call settles its own id, unless it was settled before, and no other. -/
theorem find?_afterCall (c : Catalog) (d : Descriptor) (id : String) :
    (c.afterCall d).find? id = (c.find? id).or (if d.id = id then some d else none) := by
  by_cases hhas : c.has d.id
  · rw [afterCall_of_has hhas]
    by_cases hid : d.id = id
    · subst hid
      obtain ⟨d', hd'⟩ := Option.isSome_iff_exists.mp hhas
      rw [hd']
      rfl
    · rw [if_neg hid, Option.or_none]
  · rw [afterCall_of_not_has hhas]
    unfold find?
    rw [List.find?_append, List.find?_singleton]
    simp

/-- After some calls, an id belongs to the rule it had, or else to the first one of the calls. -/
theorem find?_afterCalls (c : Catalog) (calls : List Descriptor) (id : String) :
    (c.afterCalls calls).find? id = (c.find? id).or (calls.find? fun d => d.id == id) := by
  unfold afterCalls
  induction calls generalizing c with
  | nil => simp
  | cons d calls ih =>
    rw [List.foldl_cons, ih, find?_afterCall, Option.or_assoc, List.find?_cons]
    congr 1
    by_cases hid : d.id = id
    · simp [hid]
    · have hne : (d.id == id) = false := beq_false_of_ne hid
      simp [hid, hne]

theorem has_afterCalls_iff {c : Catalog} {calls : List Descriptor} {id : String} :
    (c.afterCalls calls).has id ↔ c.has id ∨ ∃ d ∈ calls, d.id = id := by
  unfold has
  rw [find?_afterCalls, Option.isSome_or, Bool.or_eq_true, List.find?_isSome]
  simp

theorem nodup_ids_afterCall {c : Catalog} (h : (c.descriptors.map Descriptor.id).Nodup)
    (d : Descriptor) : ((c.afterCall d).descriptors.map Descriptor.id).Nodup := by
  by_cases hhas : c.has d.id
  · rwa [afterCall_of_has hhas]
  · have hall : c.registerAll [d] = .ok (c.afterCall d) := by
      rw [afterCall_of_not_has hhas]
      exact bind_eq_ok_iff.mpr ⟨_, register_of_not_has hhas, rfl⟩
    exact nodup_ids_of_registerAll h hall

theorem nodup_ids_afterCalls {c : Catalog} (h : (c.descriptors.map Descriptor.id).Nodup)
    (calls : List Descriptor) : ((c.afterCalls calls).descriptors.map Descriptor.id).Nodup := by
  unfold afterCalls
  induction calls generalizing c with
  | nil => exact h
  | cons d calls ih => exact ih (nodup_ids_afterCall h d)

/-- Rules with ids of their own are all registered. -/
theorem registerAll_eq_afterCalls {c : Catalog} {ds : List Descriptor}
    (hids : (ds.map Descriptor.id).Nodup) (hnew : ∀ d ∈ ds, ¬ c.has d.id) :
    c.registerAll ds = .ok (c.afterCalls ds) := by
  induction ds generalizing c with
  | nil => rfl
  | cons d ds ih =>
    rw [List.map_cons, List.nodup_cons] at hids
    have hfree := hnew d List.mem_cons_self
    have hrest : ∀ d' ∈ ds, ¬ (c.afterCall d).has d'.id := by
      intro d' hd' hhas
      have hhas : (c.afterCalls [d]).has d'.id := hhas
      rcases has_afterCalls_iff.mp hhas with hhas | ⟨d'', hd'', hid⟩
      · exact hnew d' (List.mem_cons_of_mem _ hd') hhas
      · rw [List.mem_singleton.mp hd''] at hid
        exact hids.1 (hid ▸ List.mem_map_of_mem hd')
    refine bind_eq_ok_iff.mpr ⟨c.afterCall d, ?_, ih hids.2 hrest⟩
    rw [afterCall_of_not_has hfree, register_of_not_has hfree]

/-! ## Catalogs that hold the same rules -/

section

variable {c c' : Catalog} (hids : (c.descriptors.map Descriptor.id).Nodup)
  (hids' : (c'.descriptors.map Descriptor.id).Nodup) (hfind : ∀ id, c.find? id = c'.find? id)
include hids hids' hfind

/-- Catalogs in which every id belongs to the same rule have the same rules. -/
theorem descriptors_perm : c.descriptors.Perm c'.descriptors := by
  rw [List.perm_ext_iff_of_nodup (List.Nodup.of_map _ hids) (List.Nodup.of_map _ hids')]
  intro d
  constructor
  · intro hd
    have hfound := find?_id hids hd
    rw [hfind] at hfound
    exact List.mem_of_find?_eq_some hfound
  · intro hd
    have hfound := find?_id hids' hd
    rw [← hfind] at hfound
    exact List.mem_of_find?_eq_some hfound

/-- Their rules stand in one order by their ids, as no two of them tie. -/
theorem sorted_eq : c.sorted = c'.sorted := by
  have hperm := descriptors_perm hids hids' hfind
  have hsorted : c.sorted.Perm c.descriptors := List.mergeSort_perm _ _
  have hsorted' : c'.sorted.Perm c'.descriptors := List.mergeSort_perm _ _
  refine List.Perm.eq_of_pairwise ?_
    (pairwise_mergeSort_cmp (compareOn Descriptor.id) c.descriptors)
    (pairwise_mergeSort_cmp (compareOn Descriptor.id) c'.descriptors)
    ((hsorted.trans hperm).trans hsorted'.symm)
  intro a b ha hb hab hba
  have hid : a.id = b.id :=
    Std.LawfulEqCmp.eq_of_compare (Std.OrientedCmp.isLE_antisymm hab hba)
  exact List.inj_on_of_nodup_map hids (hsorted.mem_iff.mp ha)
    (hperm.mem_iff.mpr (hsorted'.mem_iff.mp hb)) hid

end

end Catalog

/-! ## Runs that differ in the order of what is registered -/

namespace ActiveRules

/-- Two runs that nobody can tell apart: they have the same rules and know the same ids, offer the
same rules to every node, and report the same on every unit. -/
structure Alike (rs rs' : ActiveRules) : Prop where
  rules : rs.rules = rs'.rules
  isRegistered : ∀ id, rs.isRegistered id = rs'.isRegistered id
  forNode : ∀ kind phase, rs.forNode kind phase = rs'.forNode kind phase
  report : ∀ m, Report.ofModel m rs = Report.ofModel m rs'

end ActiveRules

section

variable {rs rs' : ActiveRules} (hrules : rs.rules = rs'.rules)
include hrules

theorem ActiveRules.has_eq_of_rules_eq (id : String) : rs.has id = rs'.has id := by
  simp only [has, get?, hrules]

theorem Analysis.ofModel_eq_of_rules_eq (hindexed : rs.Indexed) (hindexed' : rs'.Indexed)
    (m : Model) : ofModel m rs = ofModel m rs' := by
  have hall : rs'.rules = rs.rules.filter fun _ => true := by
    rw [← hrules, List.filter_eq_self.mpr fun _ _ => rfl]
  have hforest := Evaluation.filter_ofForest hall [] m.roots
  rw [List.filter_eq_self.mpr fun _ _ => rfl] at hforest
  rw [ofModel_eq m hindexed, ofModel_eq m hindexed', Survey.ofModel, hforest]
  rfl

/-- What a report says about idle suppressions depends on the rules of the run and on which ids are
registered. -/
theorem Report.idleFindings_eq_of_rules_eq
    (hregistered : ∀ id, rs.isRegistered id = rs'.isRegistered id) (idle : List Suppression) :
    idleFindings (some rs) idle = idleFindings (some rs') idle := by
  have hseverity : idleSeverity? (some rs) = idleSeverity? (some rs') := by
    simp only [idleSeverity?, ActiveRules.get?, hrules]
  have hidle : idle? (some rs) = idle? (some rs') := by
    funext s
    simp only [idle?, ActiveRules.has_eq_of_rules_eq hrules, hregistered]
  unfold idleFindings reported
  rw [hseverity, hidle]

theorem ActiveRules.alike_of_rules_eq (hindexed : rs.Indexed) (hindexed' : rs'.Indexed)
    (hregistered : ∀ id, rs.isRegistered id = rs'.isRegistered id) : rs.Alike rs' where
  rules := hrules
  isRegistered := hregistered
  forNode kind phase := by rw [hindexed, hindexed', hrules]
  report m := by
    unfold Report.ofModel Report.ofAnalysis Report.aggregate
    simp only [Analysis.ofModel_eq_of_rules_eq hrules hindexed hindexed' m,
      Report.idleFindings_eq_of_rules_eq hrules hregistered]

end

/-! ## The order of registration -/

/-- What becomes of a configuration in two catalogs: both stop alike, or runs that are alike. -/
inductive SameResolution :
    Except (Stop CatalogFault) ActiveRules → Except (Stop CatalogFault) ActiveRules → Prop
  | stopped (stop : Stop CatalogFault) : SameResolution (.error stop) (.error stop)
  | resolved {rs rs' : ActiveRules} (h : rs.Alike rs') : SameResolution (.ok rs) (.ok rs')

namespace Catalog

/-- Two catalogs that nobody can tell apart. -/
structure Alike (c c' : Catalog) : Prop where
  sorted : c.sorted = c'.sorted
  find? : ∀ id, c.find? id = c'.find? id
  configuration : ∀ layers, Configuration.ofLayers c layers = Configuration.ofLayers c' layers
  resolution : ∀ config, SameResolution (c.resolve config) (c'.resolve config)

section

variable {c c' : Catalog} (hids : (c.descriptors.map Descriptor.id).Nodup)
  (hids' : (c'.descriptors.map Descriptor.id).Nodup) (hfind : ∀ id, c.find? id = c'.find? id)
include hids hids' hfind

theorem sameResolution (config : Configuration) :
    SameResolution (c.resolve config) (c'.resolve config) := by
  have hunknown : c.firstUnknown? config.rules.names = c'.firstUnknown? config.rules.names := by
    simp only [firstUnknown?, has, hfind]
  have hregistered := (descriptors_perm hids hids' hfind).map Descriptor.id
  unfold resolve
  rw [hunknown, sorted_eq hids hids' hfind]
  cases c'.firstUnknown? config.rules.names with
  | some id => exact .stopped _
  | none =>
    cases activateAll config.rules c'.sorted with
    | error stop => exact .stopped stop
    | ok active =>
      refine .resolved (ActiveRules.alike_of_rules_eq rfl (ActiveRules.indexed_ofList _ _)
        (ActiveRules.indexed_ofList _ _) fun id => ?_)
      unfold ActiveRules.isRegistered ActiveRules.ofList
      rw [Bool.eq_iff_iff, List.contains_iff_mem, List.contains_iff_mem, List.mem_append,
        List.mem_append, hregistered.mem_iff]

theorem alike_of_find?_eq : c.Alike c' where
  sorted := sorted_eq hids hids' hfind
  find? := hfind
  configuration layers := by
    unfold Configuration.ofLayers Configuration.ofCatalog
    rw [sorted_eq hids hids' hfind]
  resolution := sameResolution hids hids' hfind

end

/-- Catalogs that came about by calls under which every id was first given to the same rule. -/
theorem alike_afterCalls {calls calls' : List Descriptor}
    (h : ∀ id, calls.find? (fun d => d.id == id) = calls'.find? fun d => d.id == id) :
    (afterCalls {} calls).Alike (afterCalls {} calls') := by
  have hempty : (({} : Catalog).descriptors.map Descriptor.id).Nodup := List.nodup_nil
  refine alike_of_find?_eq (nodup_ids_afterCalls hempty calls) (nodup_ids_afterCalls hempty calls')
    fun id => ?_
  rw [find?_afterCalls, find?_afterCalls, h]

theorem find?_id_eq_of_perm {ds ds' : List Descriptor} (hids : (ds.map Descriptor.id).Nodup)
    (hperm : ds.Perm ds') (id : String) :
    ds.find? (fun d => d.id == id) = ds'.find? fun d => d.id == id := by
  have hids' : (ds'.map Descriptor.id).Nodup := (hperm.map Descriptor.id).nodup_iff.mp hids
  cases hfound : ds'.find? (fun d => d.id == id) with
  | none =>
    rw [List.find?_eq_none] at hfound ⊢
    intro d hd
    exact hfound d (hperm.mem_iff.mp hd)
  | some d =>
    obtain rfl : d.id = id := by simpa using List.find?_some hfound
    have hd := hperm.mem_iff.mpr (List.mem_of_find?_eq_some hfound)
    exact find?_id (c := ⟨ds⟩) hids hd

end Catalog

/-- An id belongs to the first rule that was registered under it, and every later call with that id
is refused and changes nothing. Calls under which every id is first given to the same rule make
catalogs that nobody can tell apart, in particular the calls that register some rules with ids of
their own in any two orders. -/
theorem registration_order_does_not_show :
    (∀ (c : Catalog) (calls : List Descriptor) (id : String),
      (c.afterCalls calls).find? id = (c.find? id).or (calls.find? fun d => d.id == id)) ∧
    (∀ (c : Catalog) (earlier : List Descriptor) (d : Descriptor),
      let now := c.afterCalls earlier
      if c.has d.id ∨ ∃ d' ∈ earlier, d'.id = d.id then
        now.register d = .error (.duplicate d.id) ∧ now.afterCall d = now
      else now.register d = .ok (now.afterCall d) ∧ (now.afterCall d).find? d.id = some d ∧
        ∀ id ≠ d.id, (now.afterCall d).find? id = now.find? id) ∧
    (∀ calls calls' : List Descriptor,
      (∀ id, calls.find? (fun d => d.id == id) = calls'.find? fun d => d.id == id) →
      (Catalog.afterCalls {} calls).Alike (Catalog.afterCalls {} calls')) ∧
    ∀ ds ds' : List Descriptor, ds.Perm ds' → (ds.map Descriptor.id).Nodup →
      ∃ c c', Catalog.registerAll {} ds = .ok c ∧ Catalog.registerAll {} ds' = .ok c' ∧
        c.Alike c' := by
  refine ⟨Catalog.find?_afterCalls, ?_, fun _ _ => Catalog.alike_afterCalls, ?_⟩
  · intro c earlier d now
    split
    · rename_i hgiven
      have hhas := Catalog.has_afterCalls_iff.mpr hgiven
      exact ⟨Catalog.register_of_has hhas, Catalog.afterCall_of_has hhas⟩
    · rename_i hgiven
      have hfree := mt Catalog.has_afterCalls_iff.mp hgiven
      have hnone : now.find? d.id = none := by simpa [Catalog.has] using hfree
      refine ⟨?_, ?_, ?_⟩
      · rw [Catalog.register_of_not_has hfree, Catalog.afterCall_of_not_has hfree]
      · rw [Catalog.find?_afterCall, hnone, if_pos rfl, Option.none_or]
      · intro id hid
        rw [Catalog.find?_afterCall, if_neg (Ne.symm hid), Option.or_none]
  · intro ds ds' hperm hids
    have hids' : (ds'.map Descriptor.id).Nodup := (hperm.map Descriptor.id).nodup_iff.mp hids
    have hfree : ∀ ds : List Descriptor, ∀ d ∈ ds, ¬ ({} : Catalog).has d.id := by
      intro ds d _
      simp [Catalog.has, Catalog.find?]
    exact ⟨_, _, Catalog.registerAll_eq_afterCalls hids (hfree ds),
      Catalog.registerAll_eq_afterCalls hids' (hfree ds'),
      Catalog.alike_afterCalls (Catalog.find?_id_eq_of_perm hids hperm)⟩

theorem registration_order_does_not_show_in_standard :
    (standardRules.map Descriptor.id).Nodup ∧
      ∃ c, Catalog.registerAll {} standardRules.reverse = .ok c ∧ Catalog.standard.Alike c := by
  have hstandard : Catalog.registerAll {} standardRules = .ok .standard := rfl
  obtain ⟨-, -, -, hperm⟩ := registration_order_does_not_show
  obtain ⟨c, c', hc, hc', halike⟩ :=
    hperm standardRules standardRules.reverse (List.reverse_perm _).symm Catalog.nodup_standard_ids
  cases hstandard.symm.trans hc
  exact ⟨Catalog.nodup_standard_ids, c', hc', halike⟩

end ComponentLint

-- The domains of functions and closures. Inside of an isolated component a
-- function or closure runs in the domain of the innermost function or closure
-- that declares one, else in that of the component; nothing outside of the
-- component is asked. Every domain has a name that is not empty.
import ComponentLint.Proofs.HopScope

namespace ComponentLint

/-! ## Written forms -/

theorem append_ne_empty {a b : String} (h : b ≠ "") : a ++ b ≠ "" :=
  fun hempty => h (String.append_eq_empty_iff.mp hempty).2

namespace Number.Binary64

theorem magnitudeText_ne_nil (significand : Nat) (exponent : Int) :
    magnitudeText significand exponent ≠ [] := by
  unfold magnitudeText
  split
  · simp
  · dsimp only
    split
    · unfold positional
      split
      · simp
      · simp
    · simp [scientific]

theorem toText_ne_empty (x : Binary64) : x.toText ≠ "" := by
  cases x with
  | finite negative significand exponent => simp [toText, magnitudeText_ne_nil]
  | infinite negative => cases negative <;> decide
  | nan => decide

end Number.Binary64

namespace Value

theorem intText_ne_empty (n : Int) : toString n ≠ "" := by
  cases n with
  | ofNat n => exact Nat.repr_ne_empty
  | negSucc n => exact append_ne_empty Nat.repr_ne_empty

/-- What is written of a value is not empty. -/
theorem writtenIn_ne_empty (inside : List Nat) :
    (v : Value) → ∀ {text}, writtenIn inside v = .ok text → text ≠ ""
  | null, _, h => by
    cases h
    decide
  | bool b, _, h => by
    cases h
    cases b <;> decide
  | int n, _, h => by
    rw [writtenIn, Number.writeInt_eq, unlessLong_eq_ok_iff] at h
    exact h.2 ▸ intText_ne_empty n
  | float x, _, h => by
    cases h
    exact x.toText_ne_empty
  | str s, _, h => by
    cases h
    simp [Text.quoted]
  | date d, _, h => by
    have hend : toString ")" ≠ "" := by decide
    rw [writtenIn] at h
    exact Except.ok.inj h ▸ append_ne_empty hend
  | moment m, _, h => by
    have hend : ")" ≠ "" := by decide
    rw [writtenIn] at h
    exact Except.ok.inj h ▸ append_ne_empty hend
  | bytes content, _, h => by
    cases h
    simp [bytesWritten]
  | list items, _, h => by
    obtain ⟨texts, -, h⟩ := bind_eq_ok_iff.mp h
    cases h
    exact append_ne_empty (by decide)
  | tuple items, _, h => by
    obtain ⟨texts, -, h⟩ := bind_eq_ok_iff.mp h
    cases h
    unfold tupleText
    split
    · exact append_ne_empty (by decide)
    · exact append_ne_empty (by decide)
  | map entries, _, h => by
    obtain ⟨texts, -, h⟩ := bind_eq_ok_iff.mp h
    cases h
    exact append_ne_empty (by decide)
  | set members, _, h => by
    rw [writtenIn] at h
    split at h
    · cases h
      decide
    · obtain ⟨texts, -, h⟩ := bind_eq_ok_iff.mp h
      cases h
      exact append_ne_empty (by decide)
  | knot n body, _, h => by
    rw [writtenIn] at h
    split at h
    · cases h
      cases body.formOf <;> decide
    · exact writtenIn_ne_empty (n :: inside) body h
  | again _ form, _, h => by
    cases h
    cases form <;> decide

/-- What counts as true has a text that is not empty, if it has one. -/
theorem toText_ne_empty {v : Value} (h : v.truthy) {text : String} (htext : v.toText = .ok text) :
    text ≠ "" := by
  have hself : ∀ s : String, toString s = s := fun _ => rfl
  cases v with
  | str s =>
    cases htext
    simpa [truthy] using h
  | date d =>
    rw [toText] at htext
    rw [← Except.ok.inj htext]
    simp [Time.Date.toText, hself]
  | moment m =>
    rw [toText] at htext
    rw [← Except.ok.inj htext]
    simp [Time.Moment.toText, hself]
  | _ => exact writtenIn_ne_empty [] _ htext

end Value

/-! ## Lists of names in a run -/

theorem Descriptor.exists_bind_of_activate {d : Descriptor} {config : RuleConfig} {r : ActiveRule}
    (h : d.activate config = .ok (some r)) : ∃ values, d.bind d.defaults values = .ok r.params := by
  unfold activate at h
  obtain ⟨params, hparams, h⟩ := bind_eq_ok_iff.mp h
  split at h
  · cases h
    exact ⟨_, hparams⟩
  · cases h

theorem Descriptor.of_get?_bind {d : Descriptor} {params values bound : Entries Value}
    (h : d.bind params values = .ok bound) {key : String} {w : Value}
    (hw : bound.get? key = some w) :
    params.get? key = some w ∨ ∃ v, d.coerce key v = .ok w := by
  induction values generalizing params with
  | nil =>
    cases h
    exact Or.inl hw
  | cons e rest ih =>
    obtain ⟨name, v⟩ := e
    obtain ⟨first, hfirst, hrest⟩ := bind_eq_ok_iff.mp h
    rcases ih hrest with hput | hlater
    · rw [Entries.get?_put] at hput
      by_cases hname : name = key
      · subst hname
        rw [if_pos rfl] at hput
        cases hput
        exact Or.inr ⟨v, hfirst⟩
      · rw [if_neg hname] at hput
        exact Or.inl hput
    · exact Or.inr hlater

/-- A parameter in its domain lists no empty name. -/
theorem Parameter.Holds.ne_empty {p : Parameter} {items : List Value}
    (h : p.Holds (.tuple items)) : "" ∉ items.filterMap Value.text? := by
  unfold Holds at h
  split at h
  · obtain ⟨n, hn, -⟩ := h
    cases hn
  · obtain ⟨s, hs⟩ := h
    cases hs
  · obtain ⟨names, hnames, hclean⟩ := h
    cases hnames
    intro hempty
    obtain ⟨v, hv, htext⟩ := List.mem_filterMap.mp hempty
    obtain ⟨name, hname, rfl⟩ := List.mem_map.mp hv
    cases htext
    exact (hclean "" hname).1 rfl

/-- No list of names that a standard rule is bound to has an empty name. -/
theorem Catalog.empty_notMem_names {config : Configuration} {rs : ActiveRules}
    (hrs : Catalog.standard.resolve config = .ok rs) {r : ActiveRule} (hr : r ∈ rs.rules)
    (ctx : Context) (hparams : ctx.params = r.params) (key : String) : "" ∉ ctx.names key := by
  have hdefaults : ∀ d ∈ standardRules, ∀ e ∈ d.defaults,
      "" ∉ (e.2.items?.getD []).filterMap Value.text? := by decide
  obtain ⟨hd, hactivate⟩ := (activated_of_resolve hrs).2 r hr
  obtain ⟨values, hbound⟩ := Descriptor.exists_bind_of_activate hactivate
  unfold Context.names
  rw [hparams]
  split
  · rename_i items hitems
    rcases Descriptor.of_get?_bind hbound hitems with hdefault | ⟨v, hv⟩
    · exact hdefaults _ hd _ (Entries.mem_of_get? hdefault)
    · obtain ⟨p, -, hp⟩ := Descriptor.coerce_eq_ok_iff.mp hv
      exact (Parameter.holds_of_coerce hp).ne_empty
  · simp

/-! ## Domains -/

namespace Check

/-- No domain is without a name. -/
theorem ownDomain?_ne_empty {isolating : List String} (h : "" ∉ isolating) {n : Node}
    {domain : String} (hdomain : ownDomain? n isolating = .ok (some domain)) : domain ≠ "" := by
  unfold ownDomain? at hdomain
  split at hdomain
  · cases hdomain
    decide
  · split at hdomain
    · rename_i used hused
      cases hdomain
      rintro rfl
      have hlisted := List.find?_some hused
      exact h (by simpa using hlisted)
    · dsimp only at hdomain
      split at hdomain
      · rename_i htruthy
        obtain ⟨text, htext, hdomain⟩ := bind_eq_ok_iff.mp hdomain
        cases hdomain
        exact Value.toText_ne_empty htruthy (mapError_eq_ok_iff.mp htext)
      · cases hdomain

/-- The component that is the nearest one around a node of a walk, with the nodes between. -/
structure Nearest (v : Tree.Visit (Entry Kind)) (component : Node) (between : List Node) :
    Prop where
  path : ∃ outside, v.ancestors = outside ++ component :: between
  component : component.kind = .component
  nearest : ∀ n ∈ between, n.kind ≠ .component

/-- The domain that a node declares, else that of the innermost function or closure among some nodes
around it that declares one. -/
def domainBelow? (isolating : List String) (between : List Node) (n : Node) :
    Except Failure (Option String) :=
  domainAmong? isolating ((n :: between.reverse).filter fun n => Runs n)

/-- Among nodes that are no components only functions and closures count. -/
theorem domainAmong?_eq_filter {isolating : List String} {nodes : List Node}
    (h : ∀ n ∈ nodes, n.kind ≠ .component) :
    domainAmong? isolating nodes = domainAmong? isolating (nodes.filter fun n => Runs n) := by
  induction nodes with
  | nil => rfl
  | cons n rest ih =>
    obtain ⟨hn, hrest⟩ := List.forall_mem_cons.mp h
    rw [domainAmong?, ih hrest, List.filter_cons]
    by_cases hruns : Runs n
    · rw [if_pos (decide_eq_true hruns), domainAmong?]
    · rw [if_neg (mt (declaresDomain_iff hn).mp hruns), if_neg (by simpa using hruns)]

/-- What runs inside of an isolated component has its domain from there or from below. -/
theorem Nearest.effectiveDomain?_eq {v : Tree.Visit (Entry Kind)} {component : Node}
    {between : List Node} (h : Nearest v component between) (hruns : Runs v.tree)
    {isolating : List String} {home : String}
    (hhome : ownDomain? component isolating = .ok (some home)) (m : Model)
    (params : Entries Value) :
    effectiveDomain? ⟨v.tree, v.ancestors, m, params⟩ isolating =
      (domainBelow? isolating between v.tree).map fun domain => some (domain.getD home) := by
  obtain ⟨outside, hpath⟩ := h.path
  have hsplit : v.tree :: v.ancestors.reverse =
      (v.tree :: between.reverse) ++ component :: outside.reverse := by
    rw [hpath, List.reverse_append, List.reverse_cons, List.append_assoc]
    rfl
  have hbelow : ∀ n ∈ v.tree :: between.reverse, n.kind ≠ .component := by
    intro n hn
    rcases List.mem_cons.mp hn with rfl | hn
    · intro hkind
      rcases hruns with hfunction | hclosure
      · cases hfunction.symm.trans hkind
      · cases hclosure.symm.trans hkind
    · exact h.nearest n (List.mem_reverse.mp hn)
  have hcomponent : domainAmong? isolating (component :: outside.reverse) = .ok (some home) := by
    have hdeclares : declaresDomain .component = true := rfl
    rw [domainAmong?, h.component, if_pos hdeclares, hhome]
    rfl
  unfold effectiveDomain?
  dsimp only
  rw [hsplit, domainAmong?_append, hcomponent, domainAmong?_eq_filter hbelow]
  change (domainBelow? isolating between v.tree >>= _) = _
  cases domainBelow? isolating between v.tree with
  | error failure => rfl
  | ok domain => cases domain <;> rfl

theorem domainAmong?_ne_empty {isolating : List String} (h : "" ∉ isolating) {nodes : List Node}
    {domain : String} (hdomain : domainAmong? isolating nodes = .ok (some domain)) :
    domain ≠ "" := by
  induction nodes with
  | nil => cases hdomain
  | cons n rest ih =>
    rw [domainAmong?] at hdomain
    split at hdomain
    · obtain ⟨own, hown, hdomain⟩ := bind_eq_ok_iff.mp hdomain
      cases own with
      | none => exact ih hdomain
      | some name =>
        cases hdomain
        exact ownDomain?_ne_empty h hown
    · exact ih hdomain

end Check

end ComponentLint

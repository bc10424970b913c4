-- Where state is used. The scan for uses from a function or closure down is
-- the walk of what is below it, less what the walk reaches by leaving the
-- context; of the uses of one name the first one counts.
import ComponentLint.Check.Isolation
import ComponentLint.Proofs.FirstFailure
import ComponentLint.Proofs.Forest

namespace ComponentLint

/-! ## Walks further in -/

namespace Tree

variable {α : Type}

/-- A node of a walk, with more nodes around it. -/
def Visit.within (outer : List (Tree α)) (v : Visit α) : Visit α := ⟨v.tree, outer ++ v.ancestors⟩

theorem visitsAmong_append (outer chain ts : List (Tree α)) :
    visitsAmong (outer ++ chain) ts = (visitsAmong chain ts).map (Visit.within outer) := by
  induction ts using forest_induction generalizing chain with
  | nil => rfl
  | cons v ts us ihBelow ihBeside =>
    simp only [visitsAmong_cons, List.append_assoc, ihBelow, ihBeside, List.map_append,
      List.map_cons]
    rfl

end Tree

namespace Check

/-! ## Attempts -/

theorem ofAttempt_of_ok {attempt : Context → Except Failure (List Remark)} {ctx : Context}
    {remarks : List Remark} (h : attempt ctx = .ok remarks) :
    ofAttempt attempt ctx = ⟨remarks, none⟩ := by
  rw [ofAttempt, h]

theorem of_mem_ofAttempt {attempt : Context → Except Failure (List Remark)} {ctx : Context}
    {r : Remark} (hr : r ∈ (ofAttempt attempt ctx).remarks) :
    ∃ remarks, attempt ctx = .ok remarks ∧ r ∈ remarks := by
  unfold ofAttempt at hr
  split at hr
  · rename_i remarks hremarks
    exact ⟨remarks, hremarks, hr⟩
  · cases hr

theorem eq_ok_of_completes {attempt : Context → Except Failure (List Remark)} {ctx : Context}
    (h : (ofAttempt attempt ctx).failure = none) :
    attempt ctx = .ok (ofAttempt attempt ctx).remarks := by
  unfold ofAttempt at h ⊢
  cases hattempt : attempt ctx with
  | ok remarks => rfl
  | error failure =>
    rw [hattempt] at h
    cases h

/-! ## The scan for uses -/

/-- The name under which a node uses state. -/
def usedName (n : Node) : String := bareName (n.name.getD "")

/-- Whether a node of a walk is an identifier, and nothing on the way to it leaves the context that
the walk starts in. -/
def staysIn (home : String) (v : Tree.Visit (Entry Kind)) : Bool :=
  v.tree.kind == .identifier && (v.ancestors ++ [v.tree]).all fun n => !leavesContext home n.value

/-- The identifiers of a forest in the context around it, with the nodes of the forest that are on
the way to them. -/
def ownUses (home : String) (ts : List Node) : List (Tree.Visit (Entry Kind)) :=
  (Tree.visitsAmong [] ts).filter (staysIn home)

theorem ownUses_cons (home : String) (e : Entry Kind) (ts us : List Node) :
    ownUses home (.node e ts :: us) =
      (if leavesContext home e then []
        else (if e.kind == .identifier then [⟨.node e ts, []⟩] else []) ++
          (ownUses home ts).map (Tree.Visit.within [.node e ts])) ++ ownUses home us := by
  have hbelow : ∀ v, staysIn home (v.within [.node e ts]) =
      (!leavesContext home e && staysIn home v) := by
    intro v
    simp only [staysIn, Tree.Visit.within, List.cons_append, List.nil_append, List.all_cons,
      Tree.value]
    exact Bool.and_left_comm _ _ _
  have hself : staysIn home ⟨.node e ts, []⟩ =
      (!leavesContext home e && e.kind == .identifier) := by
    simp [staysIn, Tree.kind, Tree.value, Bool.and_comm]
  have hwithin := Tree.visitsAmong_append [Tree.node e ts] [] ts
  rw [List.append_nil] at hwithin
  unfold ownUses
  rw [Tree.visitsAmong_cons, List.nil_append, hwithin, List.cons_append, List.filter_cons,
    List.filter_append, List.filter_map, hself]
  by_cases hleaves : leavesContext home e
  · simp [Function.comp_def, hbelow, hleaves]
  · by_cases hkind : e.kind = .identifier
    · simp [Function.comp_def, hbelow, hleaves, hkind]
    · simp [Function.comp_def, hbelow, hleaves, hkind]

/-- The scan finds the identifiers of the context, in the order of the walk. -/
theorem identifiersAmong_eq (home : String) (ts : List Node) :
    identifiersAmong home ts = (ownUses home ts).map Tree.Visit.tree := by
  induction ts using Tree.forest_induction with
  | nil => rfl
  | cons e ts us ihBelow ihBeside =>
    rw [ownUses_cons, identifiersAmong, identifiers, List.map_append, ← ihBeside]
    congr 1
    by_cases hleaves : leavesContext home e
    · simp [hleaves]
    · have hbelow : ((ownUses home ts).map (Tree.Visit.within [.node e ts])).map Tree.Visit.tree =
          identifiersAmong home ts := by
        rw [ihBelow, List.map_map]
        rfl
      by_cases hkind : e.kind = .identifier
      · simp only [hleaves, hkind, Bool.false_eq_true, if_false, beq_self_eq_true, if_true,
          List.map_append, hbelow]
        rfl
      · simp [hleaves, hkind, hbelow]

theorem mem_firstUses_iff {state seen : List String} {nodes : List Node} {name : String}
    {n : Node} :
    (name, n) ∈ firstUses state seen nodes ↔
      name ∈ state ∧ name ∉ seen ∧ nodes.find? (fun n => usedName n == name) = some n := by
  induction nodes generalizing seen with
  | nil => simp [firstUses]
  | cons first rest ih =>
    rw [firstUses, List.find?_cons]
    change (name, n) ∈ (if state.contains (usedName first) && !seen.contains (usedName first) then
      (usedName first, first) :: firstUses state (usedName first :: seen) rest
      else firstUses state seen rest) ↔ _
    by_cases hname : usedName first = name
    · subst hname
      by_cases hstate : usedName first ∈ state
      · by_cases hseen : usedName first ∈ seen
        · simp [hstate, hseen, ih]
        · simp [hstate, hseen, ih, eq_comm]
      · simp [hstate, ih]
    · have hne : (usedName first == name) = false := beq_false_of_ne hname
      split
      · simp [hne, ih, Ne.symm hname]
      · simp [hne, ih]

/-! ## Uses from elsewhere -/

/-- The annotations by which a rule isolates to a domain. -/
def isolating (ctx : Context) : List String := ctx.names "isolationAnnotations"

/-- A function or closure that runs elsewhere than the isolated component around it: both domains
can be told, and are not the same. -/
structure Elsewhere (ctx : Context) (component : Node) (home : String) (domain : Option String) :
    Prop where
  around : ctx.component? = some component
  declares : ownDomain? component (isolating ctx) = .ok (some home)
  isolated : home ≠ nonisolated
  runs : effectiveDomain? ctx (isolating ctx) = .ok domain
  other : domain ≠ some home
  exempt : domain ≠ some nonisolated

/-- Elsewhere there is a remark for the first use of each name of the component's state. -/
theorem Elsewhere.isolation_eq {ctx : Context} {component : Node} {home : String}
    {domain : Option String} (h : Elsewhere ctx component home domain) :
    isolation ctx = ⟨(firstUses (stateNames component (ctx.names "stateAnnotations")) []
      (identifiersAmong home ctx.node.children)).map (isolationRemark ctx component home domain),
      none⟩ := by
  have hdeclares := h.declares
  have hruns := h.runs
  unfold isolating at hdeclares hruns
  refine ofAttempt_of_ok ?_
  rw [h.around]
  dsimp only
  rw [hdeclares]
  simp only [bind, Except.bind]
  rw [if_neg h.isolated, hruns]
  dsimp only
  rw [if_neg (by simp [h.other, h.exempt])]
  rfl

theorem exists_elsewhere_of_mem {ctx : Context} {r : Remark} (hr : r ∈ (isolation ctx).remarks) :
    ∃ component home domain, Elsewhere ctx component home domain := by
  obtain ⟨remarks, hattempt, hr⟩ := of_mem_ofAttempt hr
  split at hattempt
  · cases hattempt
    cases hr
  · rename_i component haround
    obtain ⟨own, hdeclares, hattempt⟩ := bind_eq_ok_iff.mp hattempt
    split at hattempt
    · cases hattempt
      cases hr
    · split at hattempt
      · cases hattempt
        cases hr
      · rename_i home hisolated
        obtain ⟨domain, hruns, hattempt⟩ := bind_eq_ok_iff.mp hattempt
        split at hattempt
        · cases hattempt
          cases hr
        · rename_i hother
          rw [not_or] at hother
          exact ⟨component, home, domain, haround, hdeclares, hisolated, hruns, hother.1, hother.2⟩

end Check

end ComponentLint

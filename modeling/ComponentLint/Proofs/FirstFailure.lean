-- Steps that may refuse, taken one after the other. A sequence of them ends
-- at the first step that refuses, with the refusal of that step, and goes
-- well when all of them do.
import ComponentLint.Number.Writing

namespace ComponentLint

variable {α β ε ε' : Type}

/-- Two steps go well when the first one does and the second one does with what it gave. -/
theorem bind_eq_ok_iff {x : Except ε α} {f : α → Except ε β} {b : β} :
    (x >>= f) = .ok b ↔ ∃ a, x = .ok a ∧ f a = .ok b := by
  cases x with
  | error e => simp [bind, Except.bind]
  | ok a => simp [bind, Except.bind]

theorem bind_eq_error_iff {x : Except ε α} {f : α → Except ε β} {e : ε} :
    (x >>= f) = .error e ↔ x = .error e ∨ ∃ a, x = .ok a ∧ f a = .error e := by
  cases x with
  | error e' => simp [bind, Except.bind]
  | ok a => simp [bind, Except.bind]

@[simp]
theorem mapError_ok (f : ε → ε') (a : α) : (Except.ok a).mapError f = .ok a := rfl

@[simp]
theorem mapError_error (f : ε → ε') (e : ε) :
    (Except.error e : Except ε α).mapError f = .error (f e) := rfl

theorem mapError_eq_ok_iff {f : ε → ε'} {x : Except ε α} {a : α} :
    x.mapError f = .ok a ↔ x = .ok a := by
  cases x <;> simp

theorem mapError_eq_error_iff {f : ε → ε'} {x : Except ε α} {e : ε'} :
    x.mapError f = .error e ↔ ∃ e', x = .error e' ∧ f e' = e := by
  cases x <;> simp

theorem bind_mapError_ok {f : ε → ε'} {x : Except ε α} {a : α} (h : x = .ok a)
    (g : α → Except ε' β) : (x.mapError f >>= g) = g a := by
  rw [h]
  rfl

theorem bind_mapError_error {f : ε → ε'} {x : Except ε α} {e : ε} (h : x = .error e)
    (g : α → Except ε' β) : (x.mapError f >>= g) = .error (f e) := by
  rw [h]
  rfl

/-- A result is there, or a refusal. -/
theorem ok_or_error (x : Except ε α) : (∃ a, x = .ok a) ∨ ∃ e, x = .error e := by
  cases x with
  | error e => exact Or.inr ⟨e, rfl⟩
  | ok a => exact Or.inl ⟨a, rfl⟩

/-! ## Sequences of steps -/

/-- The first of some items at which a step refuses is refused in a given way. -/
def FirstFailure (step : α → Except ε β) (items : List α) (e : ε) : Prop :=
  ∃ before a after, items = before ++ a :: after ∧
    (∀ b ∈ before, ∃ r, step b = .ok r) ∧ step a = .error e

variable {step : α → Except ε β}

theorem not_firstFailure_nil (e : ε) : ¬ FirstFailure step [] e := by
  rintro ⟨before, a, after, hsplit, -⟩
  simp at hsplit

theorem firstFailure_cons {a : α} {items : List α} {e : ε} :
    FirstFailure step (a :: items) e ↔
      step a = .error e ∨ (∃ r, step a = .ok r) ∧ FirstFailure step items e := by
  constructor
  · rintro ⟨before, a', after, hsplit, hbefore, hfails⟩
    rcases before with _ | ⟨b, before⟩
    · obtain ⟨rfl, rfl⟩ := List.cons.inj hsplit
      exact Or.inl hfails
    · obtain ⟨rfl, rfl⟩ := List.cons.inj hsplit
      rw [List.forall_mem_cons] at hbefore
      exact Or.inr ⟨hbefore.1, before, a', after, rfl, hbefore.2, hfails⟩
  · rintro (hfails | ⟨hok, before, a', after, rfl, hbefore, hfails⟩)
    · exact ⟨[], a, items, rfl, by simp, hfails⟩
    · exact ⟨a :: before, a', after, rfl, List.forall_mem_cons.mpr ⟨hok, hbefore⟩, hfails⟩

theorem mapM_eq_error_iff {items : List α} {e : ε} :
    items.mapM step = .error e ↔ FirstFailure step items e := by
  induction items with
  | nil =>
    rw [List.mapM_nil]
    exact ⟨fun h => (by cases h), fun h => absurd h (not_firstFailure_nil e)⟩
  | cons a items ih =>
    rw [List.mapM_cons, bind_eq_error_iff, firstFailure_cons, ← ih]
    refine or_congr_right ?_
    constructor
    · rintro ⟨r, hr, hrest⟩
      rcases bind_eq_error_iff.mp hrest with hrest | ⟨rs, -, hpure⟩
      · exact ⟨⟨r, hr⟩, hrest⟩
      · cases hpure
    · rintro ⟨⟨r, hr⟩, hrest⟩
      exact ⟨r, hr, bind_eq_error_iff.mpr (Or.inl hrest)⟩

theorem mapM_cons_eq_ok_iff {a : α} {items : List α} {rs : List β} :
    (a :: items).mapM step = .ok rs ↔
      ∃ r rest, step a = .ok r ∧ items.mapM step = .ok rest ∧ rs = r :: rest := by
  simp only [List.mapM_cons, bind_eq_ok_iff]
  constructor
  · rintro ⟨r, hr, rest, hrest, hrs⟩
    cases hrs
    exact ⟨r, rest, hr, hrest, rfl⟩
  · rintro ⟨r, rest, hr, hrest, rfl⟩
    exact ⟨r, hr, rest, hrest, rfl⟩

theorem mem_mapM_iff {items : List α} {rs : List β} (h : items.mapM step = .ok rs) {r : β} :
    r ∈ rs ↔ ∃ a ∈ items, step a = .ok r := by
  induction items generalizing rs with
  | nil =>
    cases h
    simp
  | cons a items ih =>
    obtain ⟨r', rest, hr', hrest, rfl⟩ := mapM_cons_eq_ok_iff.mp h
    simp [ih hrest, hr', eq_comm]

theorem mapM_eq_ok_map {items : List α} {result : α → β}
    (h : ∀ a ∈ items, step a = .ok (result a)) :
    items.mapM step = .ok (items.map result) := by
  induction items with
  | nil => rfl
  | cons a items ih =>
    obtain ⟨ha, hitems⟩ := List.forall_mem_cons.mp h
    exact mapM_cons_eq_ok_iff.mpr ⟨_, _, ha, ih hitems, rfl⟩

/-- Items that are each turned into something a step undoes come back as they are. -/
theorem mapM_map_eq_ok {written : β → α} {items : List β}
    (h : ∀ b ∈ items, step (written b) = .ok b) : (items.map written).mapM step = .ok items := by
  induction items with
  | nil => rfl
  | cons b items ih =>
    obtain ⟨hb, hitems⟩ := List.forall_mem_cons.mp h
    exact mapM_cons_eq_ok_iff.mpr ⟨_, _, hb, ih hitems, rfl⟩

/-- All steps go well exactly when each of them does. -/
theorem exists_mapM_iff {items : List α} :
    (∃ rs, items.mapM step = .ok rs) ↔ ∀ a ∈ items, ∃ r, step a = .ok r := by
  constructor
  · rintro ⟨rs, hrs⟩
    induction items generalizing rs with
    | nil => simp
    | cons a items ih =>
      obtain ⟨r, rest, hr, hrest, rfl⟩ := mapM_cons_eq_ok_iff.mp hrs
      exact List.forall_mem_cons.mpr ⟨⟨r, hr⟩, ih rest hrest⟩
  · intro h
    rcases ok_or_error (items.mapM step) with hok | ⟨e, he⟩
    · exact hok
    · obtain ⟨before, a, after, rfl, -, hfails⟩ := mapM_eq_error_iff.mp he
      obtain ⟨r, hr⟩ := h a (by simp)
      rw [hr] at hfails
      cases hfails

/-- Steps that are taken in batches are taken one after the other. -/
theorem mapM_flatten (step : α → Except ε β) (itemss : List (List α)) :
    (itemss.mapM (fun items => items.mapM step) >>= fun found => pure found.flatten) =
      itemss.flatten.mapM step := by
  induction itemss with
  | nil => rfl
  | cons items itemss ih =>
    rw [List.mapM_cons, List.flatten_cons, List.mapM_append, ← ih]
    simp

/-! ## What a step may come to -/

/-- A step that gives only what has one property and refuses only in ways that have another. -/
def Settles (refusals : ε → Prop) (results : α → Prop) : Except ε α → Prop
  | .ok a => results a
  | .error e => refusals e

namespace Settles

variable {refusals : ε → Prop} {results : α → Prop} {results' : β → Prop}

theorem bind {x : Except ε α} {f : α → Except ε β} (hx : Settles refusals results x)
    (hf : ∀ a, results a → Settles refusals results' (f a)) :
    Settles refusals results' (x >>= f) := by
  cases x with
  | error e => exact hx
  | ok a => exact hf a hx

theorem mapError {refusals' : ε' → Prop} {f : ε → ε'} {x : Except ε α}
    (hx : Settles refusals results x) (hf : ∀ e, refusals e → refusals' (f e)) :
    Settles refusals' results (x.mapError f) := by
  cases x with
  | error e => exact hf e hx
  | ok a => exact hx

theorem imp {given : α → Prop} {x : Except ε α} (hx : Settles refusals results x)
    (h : ∀ a, results a → given a) : Settles refusals given x := by
  cases x with
  | error e => exact hx
  | ok a => exact h a hx

theorem mapM {items : List α} (h : ∀ a ∈ items, Settles refusals results' (step a)) :
    Settles refusals (fun rs => ∀ r ∈ rs, results' r) (items.mapM step) := by
  induction items with
  | nil => exact List.forall_mem_nil _
  | cons a items ih =>
    obtain ⟨ha, hitems⟩ := List.forall_mem_cons.mp h
    rw [List.mapM_cons]
    refine ha.bind fun r hr => (ih hitems).bind fun rs hrs => ?_
    exact List.forall_mem_cons.mpr ⟨hr, hrs⟩

theorem of_eq_ok {x : Except ε α} (h : Settles refusals results x) {a : α} (hx : x = .ok a) :
    results a := by
  rw [hx] at h
  exact h

theorem of_eq_error {x : Except ε α} (h : Settles refusals results x) {e : ε}
    (hx : x = .error e) : refusals e := by
  rw [hx] at h
  exact h

/-- A step that refuses in no way gives something. -/
theorem exists_ok {x : Except ε α} (h : Settles refusals results x) (hnever : ∀ e, ¬ refusals e) :
    ∃ a, x = .ok a := by
  cases x with
  | error e => exact absurd h (hnever e)
  | ok a => exact ⟨a, rfl⟩

end Settles

end ComponentLint

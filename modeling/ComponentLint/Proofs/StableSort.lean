-- Sorting is stable: items that tie keep their order. So a sorted list is
-- settled by what it holds of each class of ties.
import ComponentLint.Proofs.RuleOrder

namespace ComponentLint

variable {α : Type} {cmp : α → α → Ordering} [Std.TransCmp cmp]

/-- Items that tie with each other stand in a sorted list as they stood before. -/
theorem filter_mergeSort_cmp {p : α → Bool} (hp : ∀ a b, p a → p b → (cmp a b).isLE = true)
    (l : List α) : (l.mergeSort fun a b => (cmp a b).isLE).filter p = l.filter p := by
  have hpairwise : (l.filter p).Pairwise fun a b => (cmp a b).isLE = true :=
    List.pairwise_of_forall_mem_list fun a ha b hb =>
      hp a b (List.mem_filter.mp ha).2 (List.mem_filter.mp hb).2
  have htrans : ∀ a b c, (cmp a b).isLE = true → (cmp b c).isLE = true → (cmp a c).isLE = true :=
    fun a b c hab hbc => Std.TransCmp.isLE_trans hab hbc
  have hsublist := List.sublist_mergeSort htrans (isLE_total cmp) hpairwise List.filter_sublist
  have hlength := ((List.mergeSort_perm l fun a b => (cmp a b).isLE).filter p).length_eq
  have hfiltered := hsublist.filter p
  simp only [List.filter_filter, Bool.and_self] at hfiltered
  exact (hfiltered.eq_of_length hlength.symm).symm

/-- Sorting leaves each class of ties as it was. -/
theorem filter_tie_mergeSort (x : α) (l : List α) :
    (l.mergeSort fun a b => (cmp a b).isLE).filter (fun a => cmp x a == .eq) =
      l.filter fun a => cmp x a == .eq := by
  refine filter_mergeSort_cmp ?_ l
  intro a b ha hb
  have hax : cmp a x = .eq := Std.OrientedCmp.eq_symm (beq_iff_eq.mp ha)
  have hab : cmp a b = .eq := Std.TransCmp.eq_trans hax (beq_iff_eq.mp hb)
  simp [hab]

/-- A list that holds the same of each class of ties has the same items. -/
theorem mem_of_filter_tie_eq {l l' : List α}
    (h : ∀ x, l.filter (fun a => cmp x a == .eq) = l'.filter fun a => cmp x a == .eq) {a : α}
    (ha : a ∈ l) : a ∈ l' := by
  have htie : a ∈ l.filter fun b => cmp a b == .eq :=
    List.mem_filter.mpr ⟨ha, by simp [Std.ReflCmp.compare_self]⟩
  rw [h a] at htie
  exact (List.mem_filter.mp htie).1

/-- Two sorted lists are equal when they hold the same of each class of ties, in the same order. -/
theorem eq_of_filter_tie_eq {l l' : List α} (hl : l.Pairwise fun a b => (cmp a b).isLE = true)
    (hl' : l'.Pairwise fun a b => (cmp a b).isLE = true)
    (h : ∀ x, l.filter (fun a => cmp x a == .eq) = l'.filter fun a => cmp x a == .eq) :
    l = l' := by
  induction l generalizing l' with
  | nil =>
    cases l' with
    | nil => rfl
    | cons b bs => cases mem_of_filter_tie_eq (fun x => (h x).symm) (List.mem_cons_self (a := b))
  | cons a as ih =>
    cases l' with
    | nil => cases mem_of_filter_tie_eq h (List.mem_cons_self (a := a))
    | cons b bs =>
      rw [List.pairwise_cons] at hl hl'
      -- Each head is in the other list, so neither comes strictly before the other.
      have hab : (cmp a b).isLE = true := by
        have hb := mem_of_filter_tie_eq (fun x => (h x).symm) (List.mem_cons_self (a := b))
        rcases List.mem_cons.mp hb with rfl | hb
        · simp [Std.ReflCmp.compare_self]
        · exact hl.1 b hb
      have hba : (cmp b a).isLE = true := by
        rcases List.mem_cons.mp (mem_of_filter_tie_eq h (List.mem_cons_self (a := a))) with rfl | ha
        · simp [Std.ReflCmp.compare_self]
        · exact hl'.1 a ha
      have htie : cmp a b = .eq := Std.OrientedCmp.isLE_antisymm hab hba
      have heads := h a
      simp only [List.filter_cons, Std.ReflCmp.compare_self, htie, beq_self_eq_true, if_true,
        List.cons.injEq] at heads
      obtain ⟨rfl, -⟩ := heads
      refine congrArg (a :: ·) (ih hl.2 hl'.2 fun x => ?_)
      have hx := h x
      by_cases hxa : cmp x a == .eq
      · simpa [List.filter_cons, hxa] using hx
      · simpa [List.filter_cons, hxa] using hx

/-- What a list is sorted to depends on the order of ties only. -/
theorem mergeSort_eq_of_filter_tie_eq (cmp : α → α → Ordering) [Std.TransCmp cmp]
    {l l' : List α}
    (h : ∀ x, l.filter (fun a => cmp x a == .eq) = l'.filter fun a => cmp x a == .eq) :
    (l.mergeSort fun a b => (cmp a b).isLE) = l'.mergeSort fun a b => (cmp a b).isLE := by
  refine eq_of_filter_tie_eq (pairwise_mergeSort_cmp cmp l) (pairwise_mergeSort_cmp cmp l') ?_
  intro x
  rw [filter_tie_mergeSort, filter_tie_mergeSort]
  exact h x

/-- A list in the order of a comparison, in which items that tie stand as in another list. -/
structure StablySorted (cmp : α → α → Ordering) (l sorted : List α) : Prop where
  ascending : sorted.Pairwise fun a b => (cmp a b).isLE = true
  ties : ∀ x, sorted.filter (fun a => cmp x a == .eq) = l.filter fun a => cmp x a == .eq

/-- There is one such list. -/
theorem stablySorted_iff {l sorted : List α} :
    StablySorted cmp l sorted ↔ sorted = l.mergeSort fun a b => (cmp a b).isLE := by
  constructor
  · rintro ⟨hascending, hties⟩
    refine eq_of_filter_tie_eq hascending (pairwise_mergeSort_cmp cmp l) ?_
    intro x
    rw [hties, filter_tie_mergeSort]
  · rintro rfl
    exact ⟨pairwise_mergeSort_cmp cmp l, fun x => filter_tie_mergeSort x l⟩

theorem StablySorted.perm {l sorted : List α} (h : StablySorted cmp l sorted) : sorted.Perm l := by
  rw [stablySorted_iff.mp h]
  exact List.mergeSort_perm _ _

/-- Lists that are sorted again once they are put together might as well not have been sorted. -/
theorem mergeSort_append_mergeSort (cmp : α → α → Ordering) [Std.TransCmp cmp] (l l' : List α) :
    (((l.mergeSort fun a b => (cmp a b).isLE) ++ l'.mergeSort fun a b => (cmp a b).isLE).mergeSort
      fun a b => (cmp a b).isLE) = (l ++ l').mergeSort fun a b => (cmp a b).isLE := by
  refine mergeSort_eq_of_filter_tie_eq cmp ?_
  intro x
  rw [List.filter_append, List.filter_append, filter_tie_mergeSort, filter_tie_mergeSort]

/-- Picking items and sorting them can be done in either order. -/
theorem filter_mergeSort (p : α → Bool) (l : List α) :
    (l.mergeSort fun a b => (cmp a b).isLE).filter p =
      (l.filter p).mergeSort fun a b => (cmp a b).isLE := by
  have hcomm : ∀ (x : α) (items : List α), (items.filter p).filter (fun a => cmp x a == .eq) =
      (items.filter fun a => cmp x a == .eq).filter p := by
    intro x items
    simp only [List.filter_filter, Bool.and_comm]
  refine eq_of_filter_tie_eq ((pairwise_mergeSort_cmp cmp l).filter p)
    (pairwise_mergeSort_cmp cmp _) ?_
  intro x
  rw [hcomm, filter_tie_mergeSort, filter_tie_mergeSort, hcomm]

theorem transCmp_along (cmp : α → α → Ordering) [Std.TransCmp cmp] {β : Type} (f : β → α) :
    Std.TransCmp fun a b => cmp (f a) (f b) where
  eq_swap {a b} := Std.OrientedCmp.eq_swap (a := f a) (b := f b)
  isLE_trans {a b c} := Std.TransCmp.isLE_trans (a := f a) (b := f b) (c := f c)

/-- Items added at the end leave the others in the order in which they are sorted alone. -/
theorem mergeSort_sublist_append (l added : List α) :
    (l.mergeSort fun a b => (cmp a b).isLE).Sublist
      ((l ++ added).mergeSort fun a b => (cmp a b).isLE) := by
  have := transCmp_along cmp (Prod.fst : α × Bool → α)
  have hmap : ∀ es : List (α × Bool),
      (es.mergeSort fun a b => (cmp a.1 b.1).isLE).map Prod.fst =
        (es.map Prod.fst).mergeSort fun a b => (cmp a b).isLE :=
    fun es => List.map_mergeSort fun _ _ _ _ => rfl
  -- Each item is marked: whether it was there before.
  have hall : (l.map (·, true) ++ added.map (·, false)).map Prod.fst = l ++ added := by
    simp [Function.comp_def]
  have hold : ((l.map (·, true) ++ added.map (·, false)).filter Prod.snd).map Prod.fst = l := by
    rw [List.filter_append, List.filter_eq_self.mpr (by simp), List.filter_eq_nil_iff.mpr (by simp)]
    simp [Function.comp_def]
  have hsublist := (List.filter_sublist (p := Prod.snd)
    (l := (l.map (·, true) ++ added.map (·, false)).mergeSort
      fun a b => (cmp a.1 b.1).isLE)).map Prod.fst
  rwa [filter_mergeSort, hmap, hmap, hall, hold] at hsublist

end ComponentLint

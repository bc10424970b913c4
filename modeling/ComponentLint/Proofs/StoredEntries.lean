-- Settings stored under names, and the fields of mappings. What is stored
-- under a name is what was stored under it last.
import ComponentLint.Entries
import ComponentLint.Value.Basic
import Mathlib.Data.List.Nodup

namespace ComponentLint

/-! ## The last word -/

/-- The last answer among those that some items give. -/
def lastWord {α β : Type} (answer : α → Option β) (items : List α) : Option β :=
  items.reverse.findSome? answer

section

variable {α β γ : Type}

theorem lastWord_append (answer : α → Option β) (items items' : List α) :
    lastWord answer (items ++ items') = (lastWord answer items').or (lastWord answer items) := by
  rw [lastWord, List.reverse_append, List.findSome?_append, lastWord, lastWord]

theorem lastWord_cons (answer : α → Option β) (a : α) (items : List α) :
    lastWord answer (a :: items) = (lastWord answer items).or (answer a) := by
  simp [lastWord, List.findSome?_append]

theorem map_lastWord (answer : α → Option β) (f : β → γ) (items : List α) :
    (lastWord answer items).map f = lastWord (fun a => (answer a).map f) items := by
  induction items with
  | nil => rfl
  | cons a items ih => rw [lastWord_cons, lastWord_cons, Option.map_or, ih]

theorem lastWord_map_filter (answer : β → Option γ) (f : α → β) (p : α → Bool) (items : List α) :
    lastWord answer ((items.filter p).map f) =
      lastWord (fun a => if p a then answer (f a) else none) items := by
  induction items with
  | nil => rfl
  | cons a items ih =>
    rw [lastWord_cons, ← ih, List.filter_cons]
    by_cases hp : p a
    · rw [if_pos hp, if_pos hp, List.map_cons, lastWord_cons]
    · rw [if_neg hp, if_neg hp, Option.or_none]

end

/-! ## Stored settings -/

namespace Entries

variable {α : Type} {name : String} {a : α} {entries : Entries α}

theorem mem_of_get? (h : entries.get? name = some a) : (name, a) ∈ entries := by
  induction entries with
  | nil => simp [get?] at h
  | cons e rest ih =>
    obtain ⟨n, b⟩ := e
    rw [get?] at h
    by_cases hn : n = name
    · rw [if_pos hn, Option.some.injEq] at h
      rw [hn, h]
      exact List.mem_cons_self
    · rw [if_neg hn] at h
      exact List.mem_cons_of_mem _ (ih h)

theorem mem_put {e : String × α} (h : e ∈ entries.put name a) : e = (name, a) ∨ e ∈ entries := by
  induction entries with
  | nil => simpa [put] using h
  | cons other rest ih =>
    obtain ⟨n, b⟩ := other
    rw [put] at h
    by_cases hn : n = name
    · rw [if_pos hn, hn] at h
      rcases List.mem_cons.mp h with rfl | h
      · exact Or.inl rfl
      · exact Or.inr (List.mem_cons_of_mem _ h)
    · rw [if_neg hn] at h
      rcases List.mem_cons.mp h with rfl | h
      · exact Or.inr List.mem_cons_self
      · exact (ih h).imp id (List.mem_cons_of_mem _)

theorem mem_names_iff : name ∈ entries.names ↔ ∃ a, entries.get? name = some a := by
  constructor
  · intro h
    induction entries with
    | nil => simp [names] at h
    | cons e rest ih =>
      obtain ⟨n, a⟩ := e
      rw [get?]
      by_cases hn : n = name
      · exact ⟨a, if_pos hn⟩
      · rw [if_neg hn]
        refine ih ?_
        simpa [names, Ne.symm hn] using h
  · rintro ⟨a, ha⟩
    exact List.mem_map_of_mem (mem_of_get? ha)

/-- Under distinct names, an entry is there exactly when it is found by its name. -/
theorem mem_iff_get? (h : entries.names.Nodup) {a : α} :
    (name, a) ∈ entries ↔ entries.get? name = some a := by
  constructor
  · intro ha
    obtain ⟨b, hb⟩ := mem_names_iff.mp (List.mem_map_of_mem ha)
    have heq := List.inj_on_of_nodup_map h (mem_of_get? hb) ha rfl
    cases heq
    exact hb
  · exact mem_of_get?

theorem get?_put (name other : String) (a : α) (entries : Entries α) :
    (entries.put name a).get? other = if name = other then some a else entries.get? other := by
  induction entries with
  | nil => simp [put, get?]
  | cons e rest ih =>
    obtain ⟨n, b⟩ := e
    rw [put]
    by_cases hn : n = name
    · rw [if_pos hn, get?, get?, hn]
      split
      · rfl
      · rfl
    · rw [if_neg hn, get?, get?, ih]
      by_cases ho : n = other
      · rw [if_pos ho, if_pos ho, if_neg (fun h => hn (ho.trans h.symm))]
      · rw [if_neg ho, if_neg ho]

/-- The setting that an entry stores under a name. -/
def storedAs (name : String) (e : String × α) : Option α := if e.1 = name then some e.2 else none

theorem get?_putAll (base stronger : Entries α) (name : String) :
    (base.putAll stronger).get? name = (lastWord (storedAs name) stronger).or (base.get? name) := by
  unfold putAll
  induction stronger generalizing base with
  | nil => rfl
  | cons e rest ih =>
    rw [List.foldl_cons, ih, get?_put, lastWord_cons, storedAs, Option.or_assoc]
    split
    · rfl
    · rfl

theorem get?_ofList (entries : List (String × α)) (name : String) :
    (ofList entries).get? name = lastWord (storedAs name) entries := by
  rw [ofList, get?_putAll, get?, Option.or_none]

theorem names_put (name : String) (a : α) (entries : Entries α) :
    (entries.put name a).names =
      if name ∈ entries.names then entries.names else entries.names ++ [name] := by
  induction entries with
  | nil => rfl
  | cons e rest ih =>
    obtain ⟨n, b⟩ := e
    unfold names at ih ⊢
    rw [put]
    by_cases hn : n = name
    · simp [hn]
    · rw [if_neg hn, List.map_cons, ih]
      by_cases hmem : name ∈ rest.map Prod.fst
      · simp [hmem]
      · simp [hmem, Ne.symm hn]

theorem nodup_names_putAll {base : Entries α} (h : base.names.Nodup) (stronger : Entries α) :
    (base.putAll stronger).names.Nodup := by
  refine List.foldlRecOn (motive := fun entries => (names entries).Nodup) stronger _ h
    fun entries hentries e _ => ?_
  rw [names_put]
  split
  · exact hentries
  · rename_i hnew
    rw [List.nodup_append]
    refine ⟨hentries, by simp, fun n hn n' hn' => ?_⟩
    rw [List.mem_singleton.mp hn']
    exact fun heq => hnew (heq ▸ hn)

/-- Under distinct names, what is stored under a name is what the last entry says. -/
theorem lastWord_storedAs {entries : Entries α} (h : entries.names.Nodup) (name : String) :
    lastWord (storedAs name) entries = entries.get? name := by
  induction entries with
  | nil => rfl
  | cons e rest ih =>
    obtain ⟨n, a⟩ := e
    obtain ⟨hnew, hrest⟩ := List.nodup_cons.mp h
    rw [lastWord_cons, ih hrest, get?, storedAs]
    by_cases hn : n = name
    · have hnone : get? name rest = none := by
        cases hget : get? name rest with
        | none => rfl
        | some b => exact absurd (List.mem_map_of_mem (mem_of_get? hget)) (hn ▸ hnew)
      simp [hn, hnone]
    · simp [hn]

theorem get?_map {β : Type} (name : α → String) (f : α → β) (items : List α)
    (key : String) :
    get? key (items.map fun a => (name a, f a)) =
      (items.find? fun a => name a == key).map f := by
  induction items with
  | nil => rfl
  | cons a items ih =>
    rw [List.map_cons, get?, List.find?_cons, ih]
    by_cases hname : name a = key
    · simp [hname]
    · have hne : (name a == key) = false := beq_false_of_ne hname
      simp [hname, hne]

theorem put_of_get? (h : entries.get? name = some a) : entries.put name a = entries := by
  induction entries with
  | nil => cases h
  | cons e rest ih =>
    obtain ⟨n, b⟩ := e
    rw [get?] at h
    rw [put]
    by_cases hn : n = name
    · rw [if_pos hn] at h ⊢
      cases h
      rfl
    · rw [if_neg hn] at h ⊢
      rw [ih h]

theorem put_of_notMem {name : String} {entries : Entries α} (h : name ∉ entries.names) (a : α) :
    entries.put name a = entries ++ [(name, a)] := by
  induction entries with
  | nil => rfl
  | cons e rest ih =>
    obtain ⟨n, b⟩ := e
    simp only [names, List.map_cons, List.mem_cons, not_or] at h
    rw [put, if_neg (Ne.symm h.1), ih h.2, List.cons_append]

theorem putAll_of_nodup {base more : Entries α} (h : (names (base ++ more)).Nodup) :
    base.putAll more = base ++ more := by
  induction more generalizing base with
  | nil => simp [putAll]
  | cons e more ih =>
    obtain ⟨n, a⟩ := e
    have hn : n ∉ base.names := by
      simp only [names, List.map_append, List.map_cons, List.nodup_append] at h
      intro hn
      exact h.2.2 n hn n List.mem_cons_self rfl
    have hput := put_of_notMem hn a
    rw [List.append_cons, ← hput] at h ⊢
    exact ih h

/-- Settings whose names differ are stored as they are given. -/
theorem ofList_of_nodup {entries : Entries α} (h : entries.names.Nodup) :
    ofList entries = entries :=
  putAll_of_nodup h

end Entries

/-! ## Fields of a mapping -/

namespace Value

theorem entry?_cons (key : String) (k v : Value) (rest : List (Value × Value)) :
    entry? key ((k, v) :: rest) = if k.isText key then some v else entry? key rest := by
  cases k <;> simp [isText, entry?]

/-- What has a field is a mapping. -/
theorem exists_unfold_of_field? {v w : Value} {key : String} (h : v.field? key = some w) :
    ∃ entries, v.unfold = .map entries := by
  unfold field? at h
  split at h
  · rename_i entries hmap
    exact ⟨entries, hmap⟩
  · cases h

theorem field?_of_unfold_ne_map {v : Value} (h : ∀ entries, v.unfold ≠ .map entries)
    (key : String) : v.field? key = none := by
  refine Option.eq_none_iff_forall_ne_some.mpr fun w hw => ?_
  obtain ⟨entries, hmap⟩ := exists_unfold_of_field? hw
  exact h entries hmap

theorem sameKey_str (k : Value) (key : String) : sameKey k (.str key) = k.isText key := by
  cases k <;> simp [sameKey, isText, wholeNumber?]

theorem isText_iff {key : String} {k : Value} : k.isText key ↔ k = .str key := by
  cases k <;> simp [isText]

theorem entry?_put_self (key : String) (v : Value) (entries : List (Value × Value)) :
    entry? key (put (.str key) v entries) = some v := by
  induction entries with
  | nil => simp [put, entry?]
  | cons e rest ih =>
    obtain ⟨k, w⟩ := e
    rw [put, sameKey_str]
    by_cases hk : k.isText key
    · rw [if_pos hk, entry?_cons, if_pos hk]
    · rw [if_neg hk, entry?_cons, if_neg hk, ih]

theorem entry?_put_ne {key other : String} (h : other ≠ key) (v : Value)
    (entries : List (Value × Value)) :
    entry? other (put (.str key) v entries) = entry? other entries := by
  have hother : ∀ k : Value, k.isText key → ¬ k.isText other := by
    intro k hk hko
    have := (isText_iff.mp hk).symm.trans (isText_iff.mp hko)
    simp only [str.injEq] at this
    exact h this.symm
  induction entries with
  | nil =>
    rw [put, entry?_cons, if_neg (hother _ (isText_iff.mpr rfl))]
  | cons e rest ih =>
    obtain ⟨k, w⟩ := e
    rw [put, sameKey_str]
    by_cases hk : k.isText key
    · rw [if_pos hk, entry?_cons, entry?_cons, if_neg (hother k hk), if_neg (hother k hk)]
    · rw [if_neg hk, entry?_cons, entry?_cons, ih]

end Value

end ComponentLint

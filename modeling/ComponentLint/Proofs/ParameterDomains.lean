-- The domains of parameters. A value can be put into the domain of a
-- parameter exactly when the domain accepts it, and what it becomes is an
-- integer from the minimum on, a text, or names without blanks around them.
-- Any other value is refused, as long as the refusal can be written.
import ComponentLint.Proofs.WrittenIntegers
import ComponentLint.Rule.Parameter
import Mathlib.Data.List.DropRight

namespace ComponentLint

open ComponentLint.Text

/-! ## Texts without the blanks around them -/

theorem trimEnd_eq_rdropWhile (cs : List Char) : trimEnd cs = cs.rdropWhile isBlank := rfl

theorem trim_trim (cs : List Char) : trim (trim cs) = trim cs := by
  unfold trim
  rw [trimEnd_eq_rdropWhile, trimEnd_eq_rdropWhile]
  -- What is left starts as the text without its first blanks does, so with no blank.
  have hstart : ((cs.dropWhile isBlank).rdropWhile isBlank).dropWhile isBlank =
      (cs.dropWhile isBlank).rdropWhile isBlank := by
    rw [List.dropWhile_eq_self_iff]
    intro hpos
    have hkept := List.rdropWhile_prefix isBlank (l := cs.dropWhile isBlank)
    have hlen : 0 < (cs.dropWhile isBlank).length := lt_of_lt_of_le hpos hkept.length_le
    rw [hkept.getElem hpos]
    exact List.dropWhile_eq_self_iff.mp (List.dropWhile_idempotent isBlank _) hlen
  rw [hstart, List.rdropWhile_idempotent]

theorem trimText_trimText (s : String) : trimText (trimText s) = trimText s := by
  unfold trimText
  rw [String.toList_ofList, trim_trim]

/-- Names as parameters hold them: none is empty or has blanks around it. -/
def Clean (names : List String) : Prop := ∀ name ∈ names, name ≠ "" ∧ trimText name = name

theorem clean_cleanNames (parts : List String) : Clean (cleanNames parts) := by
  intro name hname
  obtain ⟨hmem, hne⟩ := List.mem_filter.mp hname
  obtain ⟨part, -, rfl⟩ := List.mem_map.mp hmem
  refine ⟨?_, trimText_trimText part⟩
  rintro hempty
  rw [hempty] at hne
  exact absurd hne (by decide)

theorem cleanNames_of_clean {names : List String} (h : Clean names) : cleanNames names = names := by
  have htrim : names.map trimText = names :=
    (List.map_congr_left fun name hname => (h name hname).2).trans (List.map_id' names)
  rw [cleanNames, htrim, List.filter_eq_self]
  intro name hname
  simpa using (h name hname).1

/-! ## Domains -/

theorem exists_allTexts?_iff (items : List Value) :
    (∃ texts, allTexts? items = some texts) ↔ ∀ item ∈ items, ∃ s, item = .str s := by
  induction items with
  | nil => simp [allTexts?]
  | cons v rest ih =>
    rw [List.forall_mem_cons, ← ih]
    cases v with
    | str s => simp [allTexts?, Value.text?, Option.bind_eq_some_iff]
    | _ => simp [allTexts?, Value.text?]

theorem allTexts?_map_str (names : List String) :
    allTexts? (names.map Value.str) = some names := by
  induction names with
  | nil => rfl
  | cons name names ih =>
    rw [List.map_cons, allTexts?, ih]
    rfl

/-- A value that lists names: a text, or a list of texts. -/
def ListsNames (v : Value) : Prop :=
  (∃ s, v.unfold = .str s) ∨
    ∃ items, (v.unfold = .list items ∨ v.unfold = .tuple items) ∧
      ∀ item ∈ items, ∃ s, item = .str s

theorem exists_namesOf?_iff (v : Value) : (∃ names, namesOf? v = some names) ↔ ListsNames v := by
  unfold namesOf? ListsNames
  cases v.unfold with
  | str s => simp
  | list items => simp [← exists_allTexts?_iff, Option.map_eq_some_iff]
  | tuple items => simp [← exists_allTexts?_iff, Option.map_eq_some_iff]
  | _ => simp

theorem clean_of_namesOf? {v : Value} {names : List String} (h : namesOf? v = some names) :
    Clean names := by
  unfold namesOf? at h
  split at h
  · cases h
    exact clean_cleanNames _
  · obtain ⟨texts, -, rfl⟩ := Option.map_eq_some_iff.mp h
    exact clean_cleanNames texts
  · obtain ⟨texts, -, rfl⟩ := Option.map_eq_some_iff.mp h
    exact clean_cleanNames texts
  · cases h

namespace Unfit

variable {why : String → Unfit} {v : Value}

@[simp]
theorem refuse_ne_ok {w : Value} : refuse why v ≠ .ok w := by
  unfold refuse
  cases v.written <;> simp [Stop.writing, bind, Except.bind, throw, throwThe,
    MonadExceptOf.throw]

/-- A value is refused in words when it can be written. -/
theorem refuse_eq_error_iff {stop : Stop Unfit} :
    refuse why v = .error stop ↔
      (∃ text, v.written = .ok text ∧ stop = .refused (why text)) ∨
        v.writable = false ∧ stop = .longInteger := by
  have hwritten := v.exists_written_iff
  unfold refuse
  cases htext : v.written with
  | error long =>
    have hlong : v.writable = false := by
      rw [Bool.eq_false_iff, ne_eq, ← hwritten, htext]
      simp
    simp [hlong, Stop.writing, bind, Except.bind, eq_comm]
  | ok text =>
    have hshort : v.writable = true := hwritten.mp ⟨text, htext⟩
    simp [hshort, Stop.writing, bind, Except.bind, throw, throwThe,
      MonadExceptOf.throw, eq_comm]

end Unfit

namespace Parameter

/-- The values that the domain of a parameter accepts. -/
def Accepts (p : Parameter) (v : Value) : Prop :=
  match p.domain with
  | .int => ∃ n, v = .int n ∧ ∀ least ∈ p.minimum, least ≤ n
  | .text => ∃ s, v = .str s
  | .names => ListsNames v

/-- The values that a parameter has in a run: an integer from the minimum on, a text, or a tuple of
names. -/
def Holds (p : Parameter) (w : Value) : Prop :=
  match p.domain with
  | .int => ∃ n, w = .int n ∧ ∀ least ∈ p.minimum, least ≤ n
  | .text => ∃ s, w = .str s
  | .names => ∃ names, w = namesValue names ∧ Clean names

theorem coerce_int_eq_ok_iff {p : Parameter} (hp : p.domain = .int) {n : Int} {w : Value} :
    p.coerce (.int n) = .ok w ↔ w = .int n ∧ ∀ least ∈ p.minimum, least ≤ n := by
  unfold coerce
  simp only [hp]
  cases p.minimum with
  | none => simp [eq_comm]
  | some least =>
    by_cases hlt : n < least
    · have hle : ¬ least ≤ n := by omega
      simp [hlt, hle, bind_eq_ok_iff]
    · have hle : least ≤ n := by omega
      simp [hlt, hle, eq_comm]

theorem coerce_of_namesOf? {p : Parameter} (hp : p.domain = .names) {v : Value}
    {names : List String} (h : namesOf? v = some names) : p.coerce v = .ok (namesValue names) := by
  simp [coerce, hp, h]

/-- A value can be put into the domain of a parameter exactly when the domain accepts it. -/
theorem exists_coerce_iff (p : Parameter) (v : Value) :
    (∃ w, p.coerce v = .ok w) ↔ p.Accepts v := by
  unfold Accepts
  cases hp : p.domain with
  | int =>
    cases v with
    | int n => simp [coerce_int_eq_ok_iff hp]
    | _ => simp [coerce, hp]
  | text => cases v <;> simp [coerce, hp]
  | names =>
    dsimp only
    rw [← exists_namesOf?_iff]
    unfold coerce
    simp only [hp]
    cases namesOf? v <;> simp

/-- The values whose refusal can be written: they can be, and so can the minimum that an integer is
held against. -/
def Tellable (p : Parameter) (v : Value) : Prop :=
  v.writable = true ∧
    (p.domain = .int → ∀ n, v = .int n → ∀ least ∈ p.minimum, Number.isShort least = true)

/-- Refusing in words, when nothing else has to be written. -/
theorem tellable_of_refuse {p : Parameter} {why : String → Unfit} {v : Value}
    (hplain : p.domain = .int → ∀ n, v ≠ .int n) {stop : Stop Unfit}
    (h : Unfit.refuse why v = .error stop) :
    (∃ reason, stop = .refused reason) ∧ p.Tellable v ∨ stop = .longInteger ∧ ¬ p.Tellable v := by
  rcases Unfit.refuse_eq_error_iff.mp h with ⟨text, htext, rfl⟩ | ⟨hlong, rfl⟩
  · refine Or.inl ⟨⟨_, rfl⟩, v.exists_written_iff.mp ⟨text, htext⟩, ?_⟩
    exact fun hint n hn => absurd hn (hplain hint n)
  · refine Or.inr ⟨rfl, fun htellable => ?_⟩
    rw [htellable.1] at hlong
    cases hlong

/-- A value that is not accepted is refused in words exactly when these can be written. -/
theorem coerce_eq_error {p : Parameter} {v : Value} {stop : Stop Unfit}
    (h : p.coerce v = .error stop) :
    (∃ reason, stop = .refused reason) ∧ p.Tellable v ∨ stop = .longInteger ∧ ¬ p.Tellable v := by
  unfold coerce at h
  split at h
  · rename_i hint
    split at h
    · rename_i n
      split at h
      · rename_i least hleast
        split at h
        · rw [Number.writeInt_eq] at h
          cases hshort : Number.isShort least with
          | false =>
            rw [hshort] at h
            cases h
            refine Or.inr ⟨rfl, fun htellable => ?_⟩
            rw [htellable.2 hint n rfl least hleast] at hshort
            cases hshort
          | true =>
            rw [hshort] at h
            rcases Unfit.refuse_eq_error_iff.mp h with ⟨text, htext, rfl⟩ | ⟨hlong, rfl⟩
            · refine Or.inl ⟨⟨_, rfl⟩, (Value.int n).exists_written_iff.mp ⟨text, htext⟩, ?_⟩
              intro _ _ _ least' hleast'
              cases Option.some.inj (hleast.symm.trans hleast')
              exact hshort
            · refine Or.inr ⟨rfl, fun htellable => ?_⟩
              rw [htellable.1] at hlong
              cases hlong
        · cases h
      · cases h
    · rename_i hother
      exact tellable_of_refuse (fun _ n hn => hother n hn) h
  · rename_i htext
    split at h
    · cases h
    · exact tellable_of_refuse (fun hint => by rw [htext] at hint; cases hint) h
  · rename_i hnames
    split at h
    · cases h
    · exact tellable_of_refuse (fun hint => by rw [hnames] at hint; cases hint) h

/-- What a value becomes lies in the domain. -/
theorem holds_of_coerce {p : Parameter} {v w : Value} (h : p.coerce v = .ok w) : p.Holds w := by
  unfold Holds
  cases hp : p.domain with
  | int =>
    cases v with
    | int n => exact ⟨n, (coerce_int_eq_ok_iff hp).mp h⟩
    | _ => simp [coerce, hp] at h
  | text =>
    cases v with
    | str s =>
      simp only [coerce, hp] at h
      cases h
      exact ⟨s, rfl⟩
    | _ => simp [coerce, hp] at h
  | names =>
    simp only [coerce, hp] at h
    cases hnames : namesOf? v with
    | none => simp [hnames] at h
    | some names =>
      simp only [hnames] at h
      cases h
      exact ⟨names, rfl, clean_of_namesOf? hnames⟩

/-- Putting a value into a domain leaves it as it is exactly when it lies there. -/
theorem coerce_eq_self_iff {p : Parameter} {w : Value} : p.coerce w = .ok w ↔ p.Holds w := by
  refine ⟨holds_of_coerce, fun h => ?_⟩
  unfold Holds at h
  cases hp : p.domain with
  | int =>
    simp only [hp] at h
    obtain ⟨n, rfl, hleast⟩ := h
    exact (coerce_int_eq_ok_iff hp).mpr ⟨rfl, hleast⟩
  | text =>
    simp only [hp] at h
    obtain ⟨s, rfl⟩ := h
    simp [coerce, hp]
  | names =>
    simp only [hp] at h
    obtain ⟨names, rfl, hclean⟩ := h
    have hnames : namesOf? (namesValue names) = some names := by
      change (allTexts? (names.map Value.str)).map cleanNames = _
      rw [allTexts?_map_str, Option.map_some, cleanNames_of_clean hclean]
    exact coerce_of_namesOf? hp hnames

end Parameter

end ComponentLint

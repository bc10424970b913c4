-- What can be written. Writing fails at integers with too many digits and at
-- nothing else, so a text is there exactly when the integers in it are short,
-- and then it is the text that writing without a limit would give.
import ComponentLint.Model.Malformed
import ComponentLint.Proofs.FirstFailure
import ComponentLint.Value.Text

namespace ComponentLint

open ComponentLint.Number

variable {α β ε : Type}

/-! ## Steps that write and refuse -/

namespace Stop

theorem writing_eq_ok_iff {x : Except LongInteger α} {a : α} :
    (writing x : Except (Stop ε) α) = .ok a ↔ x = .ok a := mapError_eq_ok_iff

end Stop

/-- A result that is there unless an integer is too long to be written. -/
def unlessLong (short : Bool) (a : α) : Except LongInteger α :=
  if short then .ok a else .error ⟨⟩

theorem unlessLong_true (a : α) : unlessLong true a = .ok a := rfl

theorem unlessLong_eq_ok_iff {short : Bool} {a b : α} :
    unlessLong short a = .ok b ↔ short = true ∧ a = b := by
  cases short <;> simp [unlessLong]

theorem exists_unlessLong_iff {short : Bool} {a : α} :
    (∃ b, unlessLong short a = .ok b) ↔ short = true := by
  simp [unlessLong_eq_ok_iff]

theorem unlessLong_bind {short : Bool} {a : α} (f : α → Except LongInteger β) :
    (unlessLong short a >>= f) = if short then f a else .error ⟨⟩ := by
  cases short <;> rfl

/-- Two texts in a row are written unless one of them is too long. -/
theorem unlessLong_bind_unlessLong {short : Bool} {a : α} (next : α → Bool) (f : α → β) :
    (unlessLong short a >>= fun x => unlessLong (next x) (f x)) =
      unlessLong (short && next a) (f a) := by
  cases short <;> rfl

theorem unlessLong_bind_pure {short : Bool} {a : α} (f : α → β) :
    (unlessLong short a >>= fun x => pure (f x)) = unlessLong short (f a) := by
  cases short <;> rfl

theorem mapM_unlessLong (short : α → Bool) (f : α → β) (items : List α) :
    (items.mapM fun a => unlessLong (short a) (f a)) =
      unlessLong (items.all short) (items.map f) := by
  induction items with
  | nil => rfl
  | cons a items ih =>
    rw [List.mapM_cons, ih, unlessLong_bind, List.all_cons, List.map_cons]
    cases short a
    · rfl
    · rw [if_pos rfl, unlessLong_bind_pure, Bool.true_and]

/-- A step that only fails where something is too long to be written, taken for several items. -/
theorem mapM_writing {step : α → Except (Stop ε) β} {short : α → Bool} {f : α → β}
    {items : List α} (h : ∀ a ∈ items, step a = Stop.writing (unlessLong (short a) (f a))) :
    items.mapM step = Stop.writing (unlessLong (items.all short) (items.map f)) := by
  induction items with
  | nil => rfl
  | cons a items ih =>
    obtain ⟨ha, hitems⟩ := List.forall_mem_cons.mp h
    rw [List.mapM_cons, ha, ih hitems, List.all_cons, List.map_cons]
    cases short a
    · rfl
    · rw [Bool.true_and]
      cases items.all short <;> rfl

theorem foldlM_unlessLong (short : β → Bool) (f : α → β → α) (items : List β) (a : α) :
    items.foldlM (fun a b => unlessLong (short b) (f a b)) a =
      unlessLong (items.all short) (items.foldl f a) := by
  induction items generalizing a with
  | nil => rfl
  | cons b items ih =>
    rw [List.foldlM_cons, unlessLong_bind, ih, List.all_cons, List.foldl_cons]
    cases short b <;> rfl

/-- The text that is there, and nothing in place of one that is too long. -/
def orEmpty : Except LongInteger String → String
  | .ok text => text
  | .error _ => ""

theorem eq_unlessLong_orEmpty {text : Except LongInteger String} {short : Bool}
    (h : (∃ written, text = .ok written) ↔ short = true) :
    text = unlessLong short (orEmpty text) := by
  cases text with
  | ok written =>
    rw [h.mp ⟨written, rfl⟩]
    rfl
  | error long =>
    have hlong : short = false := Bool.eq_false_iff.mpr fun hshort => by
      obtain ⟨written, hwritten⟩ := h.mpr hshort
      cases hwritten
    rw [hlong]
    rfl

/-! ## Numbers and places -/

namespace Number

/-- Whether an integer has few enough digits to be written. -/
def isShort (n : Int) : Bool := n.natAbs < leastTooLong

theorem writeInt_eq (n : Int) : writeInt n = unlessLong (isShort n) (toString n) := by
  by_cases h : n.natAbs < leastTooLong
  · simp [writeInt, isShort, unlessLong, h]
  · simp [writeInt, isShort, unlessLong, h]

/-- An integer between two short ones is short. -/
theorem isShort_of_le {a b n : Int} (ha : isShort a = true) (hb : isShort b = true) (han : a ≤ n)
    (hnb : n ≤ b) : isShort n = true := by
  simp only [isShort, decide_eq_true_eq] at *
  omega

theorem lt_leastTooLong {n : Nat} (h : n < 10000) : n < leastTooLong := by
  have hpow : ∀ digits : Nat, 4 ≤ digits → 10000 ≤ Nat.pow 10 digits :=
    fun _ hdigits => Nat.pow_le_pow_right (n := 10) (by decide) hdigits
  unfold leastTooLong
  exact Nat.lt_of_lt_of_le h (hpow maxDigits (by decide))

/-- The integers of a few digits are short. -/
theorem isShort_of_natAbs_lt {n : Int} (h : n.natAbs < 10000) : isShort n = true :=
  decide_eq_true (lt_leastTooLong h)

/-- The least integer that is too long. -/
def longInteger : Int := Int.ofNat leastTooLong

theorem isShort_longInteger : isShort longInteger = false :=
  decide_eq_false (Nat.lt_irrefl leastTooLong)

theorem lt_longInteger {n : Nat} (h : n < 10000) : (n : Int) < longInteger :=
  Int.ofNat_lt.mpr (lt_leastTooLong h)

end Number

namespace Numeral

def isShort : Numeral → Bool
  | int n => Number.isShort n
  | flag _ => true

/-- A number as it is written without a limit. -/
def digits : Numeral → String
  | int n => toString n
  | flag b => Value.boolText b

theorem isShort_eq (n : Numeral) : n.isShort = Number.isShort n.value := by
  cases n with
  | int n => rfl
  | flag b => cases b <;> exact (Number.isShort_of_natAbs_lt (by decide)).symm

theorem toText_eq (n : Numeral) : n.toText = unlessLong n.isShort n.digits := by
  cases n with
  | int n => exact writeInt_eq n
  | flag b => rfl

end Numeral

/-- Whether the place where a span starts can be written. -/
def Span.isShort (s : Span) : Bool := Number.isShort s.startLine && Number.isShort s.startCol

theorem Span.toText_eq (s : Span) :
    s.toText = unlessLong s.isShort s!"{s.file}:{toString s.startLine}:{toString s.startCol}" := by
  unfold toText isShort
  rw [writeInt_eq, writeInt_eq]
  cases Number.isShort s.startLine <;> cases Number.isShort s.startCol <;> rfl

theorem Span.isShort_of_natAbs_lt {s : Span} (hline : s.startLine.natAbs < 10000)
    (hcol : s.startCol.natAbs < 10000) : s.isShort = true := by
  rw [isShort, Number.isShort_of_natAbs_lt hline, Number.isShort_of_natAbs_lt hcol, Bool.and_self]

/-- Whether the place where a place starts can be written. -/
def Place.isShort (p : Place) : Bool := p.startLine.isShort && p.startCol.isShort

theorem Place.toText_eq (p : Place) :
    p.toText = unlessLong p.isShort s!"{p.file}:{p.startLine.digits}:{p.startCol.digits}" := by
  unfold toText isShort
  rw [Numeral.toText_eq, Numeral.toText_eq]
  cases p.startLine.isShort <;> cases p.startCol.isShort <;> rfl

theorem Place.isShort_ofSpan (s : Span) : (Place.ofSpan s).isShort = s.isShort := rfl

theorem Heading.exists_toText_iff (n : Heading) :
    (∃ text, n.toText = .ok text) ↔ n.span.isShort = true := by
  unfold toText
  rw [Span.toText_eq]
  cases n.span.isShort <;> simp [unlessLong, bind, Except.bind, pure, Except.pure]

/-! ## Values -/

namespace Value

mutual

/-- Whether a value inside the collections with some labels can be written: no integer that stands
in it has too many digits. -/
def writableIn (inside : List Nat) : Value → Bool
  | int n => isShort n
  | list items => allWritable inside items
  | tuple items => allWritable inside items
  | map entries => entriesWritable inside entries
  | set members => allWritable inside members
  | knot n body => inside.contains n || writableIn (n :: inside) body
  | _ => true

/-- Whether several values can all be written. -/
def allWritable (inside : List Nat) : List Value → Bool
  | [] => true
  | v :: rest => writableIn inside v && allWritable inside rest

/-- Whether the entries of a mapping can all be written. -/
def entriesWritable (inside : List Nat) : List (Value × Value) → Bool
  | [] => true
  | (k, v) :: rest =>
    writableIn inside k && writableIn inside v && entriesWritable inside rest

end

/-- Whether a value can be written. -/
def writable (v : Value) : Bool := writableIn [] v

theorem exists_bind_pure_iff {x : Except LongInteger α} {f : α → β} :
    (∃ b, (x >>= fun a => pure (f a)) = .ok b) ↔ ∃ a, x = .ok a := by
  cases x <;> simp [bind, Except.bind, pure, Except.pure]

mutual

theorem exists_writtenIn_iff (inside : List Nat) :
    ∀ v : Value, (∃ text, writtenIn inside v = .ok text) ↔ writableIn inside v = true
  | null => by simp [writtenIn, writableIn]
  | bool b => by simp [writtenIn, writableIn]
  | int n => by simp [writtenIn, writableIn, writeInt_eq, unlessLong_eq_ok_iff]
  | float x => by simp [writtenIn, writableIn]
  | str s => by simp [writtenIn, writableIn]
  | date d => by simp [writtenIn, writableIn]
  | moment m => by simp [writtenIn, writableIn]
  | bytes content => by simp [writtenIn, writableIn]
  | list items => by
    rw [writtenIn, exists_bind_pure_iff, exists_writtenAll_iff inside items, writableIn]
  | tuple items => by
    rw [writtenIn, exists_bind_pure_iff, exists_writtenAll_iff inside items, writableIn]
  | map entries => by
    rw [writtenIn, exists_bind_pure_iff, exists_writtenEntries_iff inside entries, writableIn]
  | set members => by
    rw [writtenIn, writableIn, ← exists_writtenAll_iff inside members]
    cases members with
    | nil => simp [writtenAll]
    | cons v rest => rw [List.isEmpty_cons, if_neg (by decide), exists_bind_pure_iff]
  | knot n body => by
    rw [writtenIn, writableIn, Bool.or_eq_true, ← exists_writtenIn_iff (n :: inside) body]
    by_cases h : inside.contains n = true
    · rw [if_pos h]
      exact ⟨fun _ => Or.inl h, fun _ => ⟨_, rfl⟩⟩
    · rw [if_neg h, or_iff_right h]
  | again n form => by simp [writtenIn, writableIn]

theorem exists_writtenAll_iff (inside : List Nat) :
    ∀ items : List Value, (∃ texts, writtenAll inside items = .ok texts) ↔
      allWritable inside items = true
  | [] => by simp [writtenAll, allWritable]
  | v :: rest => by
    rw [allWritable, Bool.and_eq_true, ← exists_writtenIn_iff inside v,
      ← exists_writtenAll_iff inside rest, writtenAll]
    cases writtenIn inside v <;> cases writtenAll inside rest <;>
      simp [bind, Except.bind, pure, Except.pure]

theorem exists_writtenEntries_iff (inside : List Nat) :
    ∀ entries : List (Value × Value), (∃ texts, writtenEntries inside entries = .ok texts) ↔
      entriesWritable inside entries = true
  | [] => by simp [writtenEntries, entriesWritable]
  | (k, v) :: rest => by
    rw [entriesWritable, Bool.and_eq_true, Bool.and_eq_true, ← exists_writtenIn_iff inside k,
      ← exists_writtenIn_iff inside v, ← exists_writtenEntries_iff inside rest, writtenEntries]
    cases writtenIn inside k <;> cases writtenIn inside v <;>
      cases writtenEntries inside rest <;> simp [bind, Except.bind, pure, Except.pure]

end

theorem exists_written_iff (v : Value) : (∃ text, v.written = .ok text) ↔ v.writable = true :=
  exists_writtenIn_iff [] v

/-- A value has a text exactly when it can be written. -/
theorem exists_toText_iff (v : Value) : (∃ text, v.toText = .ok text) ↔ v.writable = true := by
  unfold toText
  split
  · simp [writable, writableIn]
  · simp [writable, writableIn]
  · simp [writable, writableIn]
  · exact exists_written_iff v

/-- The text of a value that can be written. -/
def words (v : Value) : String := orEmpty v.toText

/-- A value that can be written as the program text that gives it. -/
def shown (v : Value) : String := orEmpty v.written

theorem toText_eq (v : Value) : v.toText = unlessLong v.writable v.words :=
  eq_unlessLong_orEmpty v.exists_toText_iff

theorem written_eq (v : Value) : v.written = unlessLong v.writable v.shown :=
  eq_unlessLong_orEmpty v.exists_written_iff

/-! ### Values of short integers -/

mutual

/-- Whether no integer in a value has too many digits, wherever it stands. -/
def isShort : Value → Bool
  | int n => Number.isShort n
  | list items => allShort items
  | tuple items => allShort items
  | map entries => entriesShort entries
  | set members => allShort members
  | knot _ body => isShort body
  | _ => true

def allShort : List Value → Bool
  | [] => true
  | v :: rest => isShort v && allShort rest

def entriesShort : List (Value × Value) → Bool
  | [] => true
  | (k, v) :: rest => isShort k && isShort v && entriesShort rest

end

theorem allShort_iff {items : List Value} :
    allShort items = true ↔ ∀ v ∈ items, v.isShort = true := by
  induction items with
  | nil => simp [allShort]
  | cons v rest ih => rw [allShort, Bool.and_eq_true, ih, List.forall_mem_cons]

theorem entriesShort_iff {entries : List (Value × Value)} :
    entriesShort entries = true ↔ ∀ e ∈ entries, e.1.isShort = true ∧ e.2.isShort = true := by
  induction entries with
  | nil => simp [entriesShort]
  | cons e rest ih =>
    rw [entriesShort, Bool.and_eq_true, Bool.and_eq_true, ih, List.forall_mem_cons]

mutual

theorem writableIn_of_isShort (inside : List Nat) :
    ∀ v : Value, v.isShort = true → writableIn inside v = true
  | int _, h => h
  | list items, h => allWritable_of_allShort inside items h
  | tuple items, h => allWritable_of_allShort inside items h
  | set members, h => allWritable_of_allShort inside members h
  | map entries, h => entriesWritable_of_entriesShort inside entries h
  | knot n body, h => by
    rw [writableIn, writableIn_of_isShort (n :: inside) body h, Bool.or_true]
  | null, _ => rfl
  | bool _, _ => rfl
  | float _, _ => rfl
  | str _, _ => rfl
  | date _, _ => rfl
  | moment _, _ => rfl
  | bytes _, _ => rfl
  | again _ _, _ => rfl

theorem allWritable_of_allShort (inside : List Nat) :
    ∀ items : List Value, allShort items = true → allWritable inside items = true
  | [], _ => rfl
  | v :: rest, h => by
    rw [allShort, Bool.and_eq_true] at h
    rw [allWritable, writableIn_of_isShort inside v h.1, allWritable_of_allShort inside rest h.2,
      Bool.and_self]

theorem entriesWritable_of_entriesShort (inside : List Nat) :
    ∀ entries : List (Value × Value), entriesShort entries = true →
      entriesWritable inside entries = true
  | [], _ => rfl
  | (k, v) :: rest, h => by
    rw [entriesShort, Bool.and_eq_true, Bool.and_eq_true] at h
    rw [entriesWritable, writableIn_of_isShort inside k h.1.1, writableIn_of_isShort inside v h.1.2,
      entriesWritable_of_entriesShort inside rest h.2, Bool.and_self, Bool.and_self]

end

theorem writable_of_isShort {v : Value} (h : v.isShort = true) : v.writable = true :=
  writableIn_of_isShort [] v h

theorem exists_toText_of_isShort {v : Value} (h : v.isShort = true) :
    ∃ text, v.toText = .ok text :=
  v.exists_toText_iff.mpr (writable_of_isShort h)

mutual

theorem isShort_tie (label : Nat) {whole : Value} (hwhole : whole.isShort = true) :
    ∀ v : Value, v.isShort = true → (tie label whole v).isShort = true
  | list items, h => allShort_tieAll label hwhole items h
  | tuple items, h => allShort_tieAll label hwhole items h
  | map entries, h => entriesShort_tieEntries label hwhole entries h
  | knot n body, h => by
    rw [tie]
    split
    · exact h
    · exact isShort_tie label hwhole body h
  | again n form, h => by
    rw [tie]
    split
    · exact hwhole
    · rfl
  | set _, h => h
  | int _, h => h
  | null, _ => rfl
  | bool _, _ => rfl
  | float _, _ => rfl
  | str _, _ => rfl
  | date _, _ => rfl
  | moment _, _ => rfl
  | bytes _, _ => rfl

theorem allShort_tieAll (label : Nat) {whole : Value} (hwhole : whole.isShort = true) :
    ∀ items : List Value, allShort items = true → allShort (tieAll label whole items) = true
  | [], _ => rfl
  | v :: rest, h => by
    rw [allShort, Bool.and_eq_true] at h
    rw [tieAll, allShort, isShort_tie label hwhole v h.1, allShort_tieAll label hwhole rest h.2,
      Bool.and_self]

theorem entriesShort_tieEntries (label : Nat) {whole : Value} (hwhole : whole.isShort = true) :
    ∀ entries : List (Value × Value), entriesShort entries = true →
      entriesShort (tieEntries label whole entries) = true
  | [], _ => rfl
  | (k, v) :: rest, h => by
    rw [entriesShort, Bool.and_eq_true, Bool.and_eq_true] at h
    rw [tieEntries, entriesShort, h.1.1, isShort_tie label hwhole v h.1.2,
      entriesShort_tieEntries label hwhole rest h.2, Bool.and_self, Bool.and_self]

end

theorem isShort_unfold {v : Value} (h : v.isShort = true) : v.unfold.isShort = true := by
  cases v with
  | knot n body => exact isShort_tie n h body h
  | _ => exact h

theorem isShort_of_entry? {key : String} {entries : List (Value × Value)} {w : Value}
    (h : entriesShort entries = true) (hw : entry? key entries = some w) : w.isShort = true := by
  induction entries with
  | nil => cases hw
  | cons e rest ih =>
    obtain ⟨k, v⟩ := e
    rw [entriesShort, Bool.and_eq_true, Bool.and_eq_true] at h
    unfold entry? at hw
    split at hw
    · cases hw
    · rename_i heq
      cases heq
      split at hw
      · cases hw
        exact h.1.2
      · exact ih h.2 hw
    · rename_i heq
      cases heq
      exact ih h.2 hw

theorem isShort_of_field? {key : String} {v w : Value} (h : v.isShort = true)
    (hw : v.field? key = some w) : w.isShort = true := by
  have hunfold := isShort_unfold h
  unfold field? at hw
  split at hw
  · rename_i entries hentries
    rw [hentries] at hunfold
    exact isShort_of_entry? hunfold hw
  · cases hw

theorem isShort_field (key : String) {v : Value} (h : v.isShort = true) :
    (v.field key).isShort = true := by
  unfold field
  cases hw : v.field? key with
  | none => rfl
  | some w => exact isShort_of_field? h hw

end Value

/-! ## Refusals of units -/

/-- A defect is raised as the refusal of the unit exactly when there are words for it. -/
theorem Defect.raised_eq_refused_iff {d : Defect} {refusal : Malformed} :
    d.raised = .refused refusal ↔ refusal.defect = d := by
  unfold raised
  split
  · rename_i message h
    constructor
    · intro hrefusal
      cases hrefusal
      rfl
    · rintro rfl
      have hmessage : refusal.message = message := by
        rw [refusal.worded] at h
        exact Except.ok.inj h
      cases refusal
      cases hmessage
      rfl
  · rename_i e h
    simp only [reduceCtorEq, false_iff]
    rintro rfl
    rw [refusal.worded] at h
    cases h

theorem Defect.exists_raised_iff {d : Defect} :
    (∃ refusal, d.raised = .refused refusal) ↔ ∃ message, d.wording = .ok message := by
  constructor
  · rintro ⟨refusal, h⟩
    cases raised_eq_refused_iff.mp h
    exact ⟨refusal.message, refusal.worded⟩
  · rintro ⟨message, h⟩
    exact ⟨⟨d, message, h⟩, raised_eq_refused_iff.mpr rfl⟩

end ComponentLint

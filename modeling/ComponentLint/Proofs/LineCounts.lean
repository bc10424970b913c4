-- How many lines of a range count. A range that starts further down is scanned
-- with the block comments that are open there, so its count is the difference
-- of two counts from the top of the text. Hence the counts of adjoining ranges
-- add up, and a line that holds no code and leaves the comments as they are
-- moves no count, wherever it is put in.
import ComponentLint.Model.Basic
import Mathlib.Data.List.InsertIdx

namespace ComponentLint

/-- A span over the lines from a first one through a last one. -/
def Span.OnLines (s : Span) (first last : Int) : Prop := s.startLine = first ∧ s.endLine = last

namespace Source

open ComponentLint.Text

/-! ## Counts from the top -/

theorem countCode_cons (depth : Nat) (line : String) (rest : List String) :
    countCode depth (line :: rest) =
      (if allBlank (stripComments depth line).1.toList then 0 else 1) +
        countCode (stripComments depth line).2 rest := rfl

theorem countCode_append (depth : Nat) (before after : List String) :
    countCode depth (before ++ after) =
      countCode depth before + countCode (depthAfter depth before) after := by
  induction before generalizing depth with
  | nil => simp [countCode, depthAfter]
  | cons line before ih =>
    rw [List.cons_append, countCode_cons, countCode_cons, ih, Nat.add_assoc]
    rfl

/-- Every line counts once at the most. -/
theorem countCode_le_length (depth : Nat) (lines : List String) :
    countCode depth lines ≤ lines.length := by
  induction lines generalizing depth with
  | nil => simp [countCode]
  | cons line lines ih =>
    have hrest := ih (stripComments depth line).2
    rw [countCode_cons, List.length_cons]
    split
    · omega
    · omega

/-- How many of the first lines of a text count; all of them when the text is not known. -/
def counted (lines : List String) (upTo : Int) : Int :=
  if lines.isEmpty then upTo else countCode 0 (lines.take upTo.toNat)

theorem slice_eq {α : Type} (items : List α) {first last : Int} (hfirst : 0 ≤ first)
    (hlast : 0 ≤ last) :
    slice items first last = (items.take last.toNat).drop first.toNat := by
  have htake : items.take (boundIndex items.length last) = items.take last.toNat := by
    rw [boundIndex, if_neg (by omega), List.take_eq_take_iff]
    omega
  rw [slice, htake, boundIndex, if_neg (by omega), List.drop_eq_drop_iff, List.length_take]
  omega

section

variable (lines : List String) {s : Span}

/-- A known text is measured with the comments that are open where the span starts. -/
theorem measure_eq_countCode {lines : List String} (hknown : lines ≠ []) (hstart : 1 ≤ s.startLine)
    (hend : 0 ≤ s.endLine) :
    measure lines s =
      countCode (depthAfter 0 (lines.take (s.startLine - 1).toNat))
        ((lines.take s.endLine.toNat).drop (s.startLine - 1).toNat) := by
  have hlast : lines.take (min s.endLine lines.length).toNat = lines.take s.endLine.toNat := by
    rw [List.take_eq_take_iff]
    omega
  have hempty : lines.isEmpty = false := by simpa using hknown
  simp only [measure, hempty, Bool.false_eq_true, if_false]
  rw [slice_eq lines (Int.le_refl 0) (by omega), slice_eq lines (by omega) (by omega), hlast]
  rfl

/-- The lines of a span that count are those up to its end less those before its start. -/
theorem measure_eq_sub (hstart : 1 ≤ s.startLine) (hend : s.startLine ≤ s.endLine + 1) :
    measure lines s = counted lines s.endLine - counted lines (s.startLine - 1) := by
  by_cases hknown : lines = []
  · subst hknown
    simp only [measure, counted, Span.lineCount, List.isEmpty_nil, if_true]
    omega
  · have hempty : lines.isEmpty = false := by simpa using hknown
    have hbefore : (lines.take s.endLine.toNat).take (s.startLine - 1).toNat =
        lines.take (s.startLine - 1).toNat := by
      rw [List.take_take, Nat.min_eq_left (by omega)]
    have hsplit := countCode_append 0 ((lines.take s.endLine.toNat).take (s.startLine - 1).toNat)
      ((lines.take s.endLine.toNat).drop (s.startLine - 1).toNat)
    rw [List.take_append_drop, hbefore] at hsplit
    rw [measure_eq_countCode hknown hstart (by omega)]
    simp only [counted, hempty, Bool.false_eq_true, if_false, hsplit]
    omega

/-- A span measures no less than nothing and no more than its lines. -/
theorem measure_bounds (hstart : 1 ≤ s.startLine) (hend : s.startLine ≤ s.endLine + 1) :
    0 ≤ measure lines s ∧ measure lines s ≤ s.lineCount := by
  by_cases hknown : lines = []
  · subst hknown
    simp only [measure, Span.lineCount, List.isEmpty_nil, if_true]
    omega
  · have hlength := countCode_le_length (depthAfter 0 (lines.take (s.startLine - 1).toNat))
      ((lines.take s.endLine.toNat).drop (s.startLine - 1).toNat)
    rw [List.length_drop, List.length_take] at hlength
    rw [measure_eq_countCode hknown hstart (by omega), Span.lineCount]
    omega

end

/-- Spans over adjoining lines measure together what a span over all of these lines does. -/
theorem measure_add (lines : List String) {a b c : Int} {whole upper lower : Span} (ha : 1 ≤ a)
    (hab : a ≤ b + 1) (hbc : b ≤ c) (hwhole : whole.OnLines a c) (hupper : upper.OnLines a b)
    (hlower : lower.OnLines (b + 1) c) :
    measure lines whole = measure lines upper + measure lines lower := by
  obtain ⟨hwholeStart, hwholeEnd⟩ := hwhole
  obtain ⟨hupperStart, hupperEnd⟩ := hupper
  obtain ⟨hlowerStart, hlowerEnd⟩ := hlower
  rw [measure_eq_sub lines (s := whole) (by omega) (by omega),
    measure_eq_sub lines (s := upper) (by omega) (by omega),
    measure_eq_sub lines (s := lower) (by omega) (by omega), hwholeStart, hwholeEnd, hupperStart,
    hupperEnd, hlowerStart, hlowerEnd, Int.add_sub_cancel]
  omega

/-- A span over some of the lines of another one does not measure more. -/
theorem measure_le_of_within (lines : List String) {inner outer : Span}
    (houter : 1 ≤ outer.startLine) (hstart : outer.startLine ≤ inner.startLine)
    (hinner : inner.startLine ≤ inner.endLine) (hend : inner.endLine ≤ outer.endLine) :
    measure lines inner ≤ measure lines outer := by
  -- The lines of the outer span above the inner one, and those below it.
  let above : Span := { outer with endLine := inner.startLine - 1 }
  let fromInner : Span := { outer with startLine := inner.startLine }
  let below : Span := { outer with startLine := inner.endLine + 1 }
  have hsplit : measure lines outer = measure lines above + measure lines fromInner :=
    measure_add lines (b := inner.startLine - 1) houter (by omega) (by omega) ⟨rfl, rfl⟩ ⟨rfl, rfl⟩
      ⟨by simp [fromInner], rfl⟩
  have hsplit' : measure lines fromInner = measure lines inner + measure lines below :=
    measure_add lines (a := inner.startLine) (by omega) (by omega) hend ⟨rfl, rfl⟩ ⟨rfl, rfl⟩
      ⟨rfl, rfl⟩
  have habove : 0 ≤ measure lines above :=
    (measure_bounds lines (s := above) houter (by simp only [above]; omega)).1
  have hbelow : 0 ≤ measure lines below :=
    (measure_bounds lines (s := below) (by simp only [below]; omega)
      (by simp only [below]; omega)).1
  omega

/-! ## Lines without code -/

/-- A line that holds no code, and after which as many block comments are open as before it. -/
def Neutral (depth : Nat) (line : String) : Prop :=
  allBlank (stripComments depth line).1.toList ∧ (stripComments depth line).2 = depth

instance (depth : Nat) (line : String) : Decidable (Neutral depth line) :=
  inferInstanceAs (Decidable (_ ∧ _))

/-- A neutral line that is put in adds nothing to the lines that count from there on. -/
theorem countCode_take_insertIdx {line : String} {lines : List String} {place k depth : Nat}
    (hplace : place ≤ lines.length) (hk : place < k)
    (hneutral : Neutral (depthAfter depth (lines.take place)) line) :
    countCode depth ((lines.insertIdx place line).take k) =
      countCode depth (lines.take (k - 1)) := by
  -- The induction goes down to the place; there the scan passes the line and is as it was.
  induction lines generalizing place k depth with
  | nil =>
    cases Nat.le_zero.mp hplace
    obtain ⟨k, rfl⟩ := Nat.exists_eq_succ_of_ne_zero (by omega : k ≠ 0)
    obtain ⟨hblank, hdepth⟩ : Neutral depth line := hneutral
    simp [countCode, hblank]
  | cons first rest ih =>
    obtain ⟨k, rfl⟩ := Nat.exists_eq_succ_of_ne_zero (by omega : k ≠ 0)
    cases place with
    | zero =>
      obtain ⟨hblank, hdepth⟩ : Neutral depth line := hneutral
      rw [List.insertIdx_zero, List.take_succ_cons, countCode_cons, if_pos hblank, hdepth,
        Nat.zero_add, Nat.succ_sub_one]
    | succ place =>
      rw [List.length_cons] at hplace
      obtain ⟨k, rfl⟩ := Nat.exists_eq_succ_of_ne_zero (by omega : k ≠ 0)
      have hrest := ih (Nat.le_of_succ_le_succ hplace) (Nat.lt_of_succ_lt_succ hk) hneutral
      rw [List.insertIdx_succ_cons, List.take_succ_cons, countCode_cons, hrest, Nat.succ_sub_one,
        Nat.succ_sub_one, List.take_succ_cons, countCode_cons]

/-- Where the first lines of a text with a neutral line put in end in the text without it. -/
theorem counted_insertIdx {line : String} {lines : List String} {place : Nat}
    (hknown : lines ≠ []) (hplace : place ≤ lines.length)
    (hneutral : Neutral (depthAfter 0 (lines.take place)) line) (k : Int) :
    counted (lines.insertIdx place line) k = counted lines (if k ≤ place then k else k - 1) := by
  have hempty : lines.isEmpty = false := by simpa using hknown
  have hempty' : (lines.insertIdx place line).isEmpty = false := by
    rw [List.isEmpty_eq_false_iff_exists_mem]
    exact ⟨line, List.mem_insertIdx hplace |>.mpr (Or.inl rfl)⟩
  simp only [counted, hempty, hempty', Bool.false_eq_true, if_false]
  by_cases hk : k ≤ place
  · rw [if_pos hk, List.take_insertIdx_eq_take_of_le _ _ _ _ (by omega)]
  · rw [if_neg hk, countCode_take_insertIdx hplace (by omega) hneutral]
    congr 3
    omega

end Source

/-- A line without code that leaves the open comments as they are is neutral: put in above a span,
within it or below it, it changes what the lines of the span measure nowhere. -/
theorem lines_without_code_are_neutral (m : Model) (hknown : m.lines ≠ []) (p : Nat) (hp : 1 ≤ p)
    (hpEnd : p ≤ m.lines.length + 1) (line : String)
    (hneutral : Source.Neutral (Source.depthAfter 0 (m.lines.take (p - 1))) line)
    (first last : Int) (hfirst : 1 ≤ first) (hlast : first ≤ last) (old new : Span)
    (hold : old.OnLines first last) :
    let edited : Model := { m with lines := m.lines.insertIdx (p - 1) line }
    (p ≤ first → new.OnLines (first + 1) (last + 1) → edited.measured new = m.measured old) ∧
    (first < p → p ≤ last → new.OnLines first (last + 1) →
      edited.measured new = m.measured old) ∧
    (last < p → new.OnLines first last → edited.measured new = m.measured old) := by
  intro edited
  have hcounted : ∀ k, Source.counted edited.lines k =
      Source.counted m.lines (if k ≤ (p - 1 : Nat) then k else k - 1) :=
    Source.counted_insertIdx hknown (by omega) hneutral
  obtain ⟨hstart, hend⟩ := hold
  have holdCount : m.measured old =
      Source.counted m.lines last - Source.counted m.lines (first - 1) := by
    rw [← hstart, ← hend]
    exact Source.measure_eq_sub _ (by omega) (by omega)
  -- Both ends of the new span are led back to the ends of the old one.
  have hnew : ∀ a b, 1 ≤ a → a ≤ b → new.OnLines a b →
      (if b ≤ (p - 1 : Nat) then b else b - 1) = last →
      (if a - 1 ≤ (p - 1 : Nat) then a - 1 else a - 1 - 1) = first - 1 →
      edited.measured new = m.measured old := by
    rintro a b ha hab ⟨rfl, rfl⟩ hb hbefore
    have hmeasure : edited.measured new =
        Source.counted edited.lines new.endLine - Source.counted edited.lines (new.startLine - 1) :=
      Source.measure_eq_sub _ ha (by omega)
    rw [hmeasure, hcounted, hcounted, hb, hbefore, holdCount]
  refine ⟨fun habove hon => ?_, fun hwithin hwithin' hon => ?_, fun hbelow hon => ?_⟩
  · exact hnew _ _ (by omega) (by omega) hon (by rw [if_neg (by omega)]; omega)
      (by split <;> omega)
  · exact hnew _ _ (by omega) (by omega) hon (by rw [if_neg (by omega)]; omega)
      (by rw [if_pos (by omega)])
  · exact hnew _ _ (by omega) (by omega) hon (by rw [if_pos (by omega)])
      (by rw [if_pos (by omega)])

/-- A unit whose text starts with a block comment over two lines. -/
def commentedUnit : Model :=
  ⟨"A", [], ["/* a", "b */ let x = 1", "let y = 2"], [], [], []⟩

-- The new line opens and closes a comment of its own inside of the one that is open.
theorem commentedUnit_takes_a_neutral_line :
    let edited : Model := { commentedUnit with
      lines := ["/* a", "/* c */ // d", "b */ let x = 1", "let y = 2"] }
    edited.measured ⟨"A", 3, 1, 4, 9⟩ = commentedUnit.measured ⟨"A", 2, 1, 3, 9⟩ ∧
    edited.measured ⟨"A", 1, 1, 4, 9⟩ = commentedUnit.measured ⟨"A", 1, 1, 3, 9⟩ ∧
    edited.measured ⟨"A", 1, 1, 1, 4⟩ = commentedUnit.measured ⟨"A", 1, 1, 1, 4⟩ ∧
    commentedUnit.measured ⟨"A", 1, 1, 3, 9⟩ = 2 := by
  have hneutral : Source.Neutral (Source.depthAfter 0 (commentedUnit.lines.take 1))
      "/* c */ // d" := by decide
  have hlaw := lines_without_code_are_neutral commentedUnit (by decide) 2 (by decide) (by decide)
    "/* c */ // d" hneutral
  exact ⟨(hlaw 2 3 (by decide) (by decide) _ _ ⟨rfl, rfl⟩).1 (by decide) ⟨rfl, rfl⟩,
    (hlaw 1 3 (by decide) (by decide) _ _ ⟨rfl, rfl⟩).2.1 (by decide) (by decide) ⟨rfl, rfl⟩,
    (hlaw 1 1 (by decide) (by decide) _ _ ⟨rfl, rfl⟩).2.2 (by decide) ⟨rfl, rfl⟩, by decide⟩

end ComponentLint

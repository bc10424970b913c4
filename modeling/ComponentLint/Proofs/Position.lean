-- The order of positions, and what the tests on spans say in terms of it.
-- Source order is linear, so the usual lemmas on orders apply to it.
import ComponentLint.Source.Span
import Mathlib.Order.Defs.LinearOrder
import Mathlib.Order.Compare

namespace ComponentLint

/-! ## Source order -/

namespace Position

theorem lt_def (p q : Position) : p < q ↔ p.line < q.line ∨ p.line = q.line ∧ p.col < q.col :=
  Iff.rfl

theorem le_def (p q : Position) : p ≤ q ↔ p.line < q.line ∨ p.line = q.line ∧ p.col ≤ q.col :=
  Iff.rfl

instance : LinearOrder Position where
  le_refl p := by rw [le_def]; omega
  le_trans p q r h1 h2 := by rw [le_def] at *; omega
  lt_iff_le_not_ge p q := by rw [lt_def, le_def, le_def]; omega
  le_antisymm p q h1 h2 := by
    rw [le_def] at h1 h2
    cases p
    cases q
    simp only [mk.injEq]
    simp only at h1 h2
    omega
  le_total p q := by rw [le_def, le_def]; omega
  toDecidableLE := inferInstance
  toDecidableEq := inferInstance
  toDecidableLT := inferInstance

end Position

/-! ## Spans -/

namespace Span

/-- A span is inverted unless it starts at its end or before. -/
theorem inverted_eq_false_iff (s : Span) : s.inverted = false ↔ s.start ≤ s.stop := by
  simp [inverted]

theorem contains_iff (a b : Span) :
    a.contains b = true ↔ a.file = b.file ∧ a.start ≤ b.start ∧ b.stop ≤ a.stop := by
  simp [contains, and_assoc]

theorem overlaps_iff (a b : Span) :
    a.overlaps b = true ↔ a.file = b.file ∧ b.start ≤ a.stop ∧ a.start ≤ b.stop := by
  simp [overlaps]

theorem contains_trans {a b c : Span} (h1 : a.contains b = true) (h2 : b.contains c = true) :
    a.contains c = true := by
  rw [contains_iff] at *
  exact ⟨h1.1.trans h2.1, h1.2.1.trans h2.2.1, h2.2.2.trans h1.2.2⟩

theorem contains_self (a : Span) : a.contains a = true :=
  (contains_iff a a).mpr ⟨rfl, le_refl _, le_refl _⟩

theorem covers_iff (s : Span) (p : Position) : s.covers p = true ↔ s.start ≤ p ∧ p ≤ s.stop := by
  simp [covers]

/-- What covers a span covers every position that the span does. -/
theorem covers_of_contains {a b : Span} {p : Position} (h : a.contains b = true)
    (hp : b.covers p = true) : a.covers p = true := by
  rw [contains_iff] at h
  rw [covers_iff] at *
  exact ⟨h.2.1.trans hp.1, hp.2.trans h.2.2⟩

/-- Spans of which one ends before the other starts cover no common position. -/
theorem not_covers_of_stop_lt {a b : Span} {p : Position} (h : a.stop < b.start)
    (ha : a.covers p = true) : ¬ b.covers p = true := by
  rw [covers_iff] at *
  exact fun hb => absurd (hb.1.trans ha.2) (not_le.mpr h)

/-- Between spans of one file, report order goes first by where they start. -/
theorem order_of_start_lt {a b : Span} (hf : a.file = b.file) (h : a.start < b.start) :
    a.order b = .lt := by
  rw [Position.lt_def] at h
  simp only [start] at h
  unfold order
  rw [hf, Std.compare_self]
  rcases h with h | ⟨h1, h2⟩
  · rw [Int.compare_eq_lt.mpr h]
    rfl
  · rw [h1, Std.compare_self, Int.compare_eq_lt.mpr h2]
    rfl

theorem order_of_start_gt {a b : Span} (hf : a.file = b.file) (h : b.start < a.start) :
    a.order b = .gt := by
  rw [Position.lt_def] at h
  simp only [start] at h
  unfold order
  rw [hf, Std.compare_self]
  rcases h with h | ⟨h1, h2⟩
  · rw [Int.compare_eq_gt.mpr h]
    rfl
  · rw [h1, Std.compare_self, Int.compare_eq_gt.mpr h2]
    rfl

/-- Two spans of one file that are in order and share no position: the first one ends before the
second one starts. -/
theorem apart_iff {a b : Span} (hf : a.file = b.file) (ha : a.start ≤ a.stop)
    (hb : b.start ≤ b.stop) :
    (a.order b ≠ .gt ∧ a.overlaps b = false) ↔ a.stop < b.start := by
  constructor
  · rintro ⟨ho, hov⟩
    by_contra hlt
    have hle : b.start ≤ a.stop := not_lt.mp hlt
    have hstop : b.stop < a.start := by
      by_contra hge
      have := (overlaps_iff a b).mpr ⟨hf, hle, not_lt.mp hge⟩
      rw [hov] at this
      cases this
    exact ho (order_of_start_gt hf (lt_of_le_of_lt hb hstop))
  · intro h
    refine ⟨?_, ?_⟩
    · rw [order_of_start_lt hf (lt_of_le_of_lt ha h)]
      simp
    · rw [← Bool.not_eq_true, overlaps_iff]
      rintro ⟨-, hle, -⟩
      exact absurd h (not_lt.mpr hle)

end Span

end ComponentLint

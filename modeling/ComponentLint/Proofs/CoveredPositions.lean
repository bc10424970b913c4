-- Spans as the positions they cover. Two spans overlap when they share a
-- position, and one contains another when it covers all of its positions. Of
-- siblings only neighbours are compared, which is enough: spans that are in
-- order and apart from the next one are apart from all that follow.
import ComponentLint.Proofs.NodeRules
import Mathlib.Data.List.Chain
import Mathlib.Order.Defs.Unbundled

namespace ComponentLint

/-- A span of a file that does not end before it starts. -/
structure Upright (file : String) where
  span : Span
  own : span.file = file
  notInverted : span.inverted = false

namespace Span

theorem eq_of_start_eq_of_stop_eq {a b : Span} (hf : a.file = b.file) (hstart : a.start = b.start)
    (hstop : a.stop = b.stop) : a = b := by
  obtain ⟨file, startLine, startCol, endLine, endCol⟩ := a
  obtain ⟨hline, hcol⟩ := Position.mk.inj hstart
  obtain ⟨hline', hcol'⟩ := Position.mk.inj hstop
  simp_all

theorem contains_antisymm {a b : Span} (h1 : a.contains b = true) (h2 : b.contains a = true) :
    a = b := by
  obtain ⟨hf, hstart, hstop⟩ := (contains_iff a b).mp h1
  obtain ⟨-, hstart', hstop'⟩ := (contains_iff b a).mp h2
  exact eq_of_start_eq_of_stop_eq hf (le_antisymm hstart hstart') (le_antisymm hstop' hstop)

/-- Whatever the ends of the spans of a file, one of them containing another is a partial order. -/
theorem isPartialOrder_contains (file : String) :
    IsPartialOrder {s : Span // s.file = file} fun a b => a.1.contains b.1 = true where
  refl a := contains_self a.1
  trans _ _ _ := contains_trans
  antisymm _ _ h1 h2 := Subtype.ext (contains_antisymm h1 h2)

end Span

namespace Upright

variable {file : String}

theorem start_le_stop (a : Upright file) : a.span.start ≤ a.span.stop :=
  (Span.inverted_eq_false_iff a.span).mp a.notInverted

theorem file_eq (a b : Upright file) : a.span.file = b.span.file := a.own.trans b.own.symm

theorem covers_start (a : Upright file) : a.span.covers a.span.start = true :=
  (Span.covers_iff _ _).mpr ⟨le_refl _, a.start_le_stop⟩

theorem covers_stop (a : Upright file) : a.span.covers a.span.stop = true :=
  (Span.covers_iff _ _).mpr ⟨a.start_le_stop, le_refl _⟩

/-- Spans that overlap share the position where the later one of them starts. -/
theorem overlaps_iff_exists_covers (a b : Upright file) :
    a.span.overlaps b.span = true ↔
      ∃ p, a.span.covers p = true ∧ b.span.covers p = true := by
  rw [Span.overlaps_iff]
  constructor
  · rintro ⟨-, hba, hab⟩
    rcases le_total a.span.start b.span.start with hle | hle
    · exact ⟨b.span.start, (Span.covers_iff _ _).mpr ⟨hle, hba⟩, b.covers_start⟩
    · exact ⟨a.span.start, a.covers_start, (Span.covers_iff _ _).mpr ⟨hle, hab⟩⟩
  · rintro ⟨p, ha, hb⟩
    rw [Span.covers_iff] at ha hb
    exact ⟨a.file_eq b, hb.1.trans ha.2, ha.1.trans hb.2⟩

/-- A span contains another one when it covers both of its ends, and so all between them. -/
theorem contains_iff_forall_covers (a b : Upright file) :
    a.span.contains b.span = true ↔
      ∀ p, b.span.covers p = true → a.span.covers p = true := by
  constructor
  · intro h p
    exact Span.covers_of_contains h
  · intro h
    have hstart := (Span.covers_iff _ _).mp (h _ b.covers_start)
    have hstop := (Span.covers_iff _ _).mp (h _ b.covers_stop)
    exact (Span.contains_iff _ _).mpr ⟨a.file_eq b, hstart.1, hstop.2⟩

theorem apart_iff (a b : Upright file) :
    Apart a.span b.span ↔ a.span.stop < b.span.start :=
  Span.apart_iff (a.file_eq b) a.start_le_stop b.start_le_stop

/-- What is apart from the next one is apart from the one after it. -/
theorem apart_trans {a b c : Upright file} (hab : Apart a.span b.span) (hbc : Apart b.span c.span) :
    Apart a.span c.span := by
  rw [apart_iff] at *
  calc a.span.stop
    _ < b.span.start := hab
    _ ≤ b.span.stop := b.start_le_stop
    _ < c.span.start := hbc

instance : IsTrans (Upright file) fun a b => Apart a.span b.span := ⟨fun _ _ _ => apart_trans⟩

end Upright

/-- Siblings of a file that are not inverted and pass the check of neighbours end before any later
one starts, not only before the next one. -/
theorem stop_lt_start_of_checkSiblings {file : String} {parent : Option Heading}
    {hs : List Heading} (h : checkSiblings parent hs = .ok ())
    (hupright : ∀ s ∈ hs, s.span.file = file ∧ s.span.inverted = false) :
    hs.Pairwise fun a b => a.span.stop < b.span.start := by
  rw [checkSiblings_eq_ok_iff] at h
  have hchain : (hs.pmap (fun s own => (⟨s.span, own.1, own.2⟩ : Upright file)) hupright).IsChain
      fun a b => Apart a.span b.span := by
    refine List.isChain_pmap_of_isChain ?_ h hupright
    intro a b _ _ hapart
    exact hapart
  refine ((List.pairwise_pmap hupright).mp hchain.pairwise).imp_of_mem ?_
  intro a b ha hb hapart
  exact (Upright.apart_iff _ _).mp (hapart (hupright a ha) (hupright b hb))

/-- Between the spans of a file that are not inverted, overlapping is to share a position, and to
contain is to cover all positions. To contain is a partial order on all spans of a file. Of three
spans in order, the first and the last are apart if both are apart from the one between them, so
siblings that pass the check of neighbours share no position at all. -/
theorem spans_are_the_positions_they_cover (file : String) :
    (∀ a b : Upright file,
      (a.span.overlaps b.span = true ↔
        ∃ p, a.span.covers p = true ∧ b.span.covers p = true) ∧
      (a.span.contains b.span = true ↔
        ∀ p, b.span.covers p = true → a.span.covers p = true)) ∧
    IsPartialOrder {s : Span // s.file = file} (fun a b => a.1.contains b.1 = true) ∧
    (∀ a b c : Upright file, a.span.order b.span ≠ .gt → b.span.order c.span ≠ .gt →
      a.span.overlaps b.span = false → b.span.overlaps c.span = false →
      a.span.overlaps c.span = false) ∧
    ∀ parent siblings, checkSiblings parent siblings = .ok () →
      (∀ s ∈ siblings, s.span.file = file ∧ s.span.inverted = false) →
      siblings.Pairwise fun s t => ¬ ∃ p, s.span.covers p = true ∧ t.span.covers p = true := by
  refine ⟨fun a b => ⟨a.overlaps_iff_exists_covers b, a.contains_iff_forall_covers b⟩,
    Span.isPartialOrder_contains file, ?_, ?_⟩
  · intro a b c hab hbc hapart hapart'
    exact (Upright.apart_trans ⟨hab, hapart⟩ ⟨hbc, hapart'⟩).2
  · intro parent siblings hcheck hupright
    refine (stop_lt_start_of_checkSiblings hcheck hupright).imp ?_
    rintro s t hlt ⟨p, hs, ht⟩
    exact Span.not_covers_of_stop_lt hlt hs ht

/-- The headings of three siblings that follow each other on two lines. -/
def rowOfHeadings : List Heading :=
  [⟨"property", some "a", ⟨"A", 1, 1, 1, 9⟩⟩, ⟨"property", some "b", ⟨"A", 1, 10, 2, 4⟩⟩,
    ⟨"function", none, ⟨"A", 2, 5, 2, 5⟩⟩]

theorem rowOfHeadings_shares_no_position :
    (checkSiblings none rowOfHeadings = .ok () ∧
      rowOfHeadings.Pairwise fun s t => ¬ ∃ p, s.span.covers p = true ∧ t.span.covers p = true) ∧
    ∃ a b c : Upright "A", rowOfHeadings.map Heading.span = [a.span, b.span, c.span] ∧
      (a.span.order b.span ≠ .gt ∧ b.span.order c.span ≠ .gt ∧
        a.span.overlaps b.span = false ∧ b.span.overlaps c.span = false) ∧
      a.span.overlaps c.span = false := by
  obtain ⟨-, -, hthree, hsiblings⟩ := spans_are_the_positions_they_cover "A"
  have hcheck : checkSiblings none rowOfHeadings = .ok () := rfl
  refine ⟨⟨hcheck, hsiblings none rowOfHeadings hcheck (by decide)⟩, ?_⟩
  refine ⟨⟨⟨"A", 1, 1, 1, 9⟩, rfl, rfl⟩, ⟨⟨"A", 1, 10, 2, 4⟩, rfl, rfl⟩,
    ⟨⟨"A", 2, 5, 2, 5⟩, rfl, rfl⟩, rfl, by decide, ?_⟩
  exact hthree _ ⟨⟨"A", 1, 10, 2, 4⟩, rfl, rfl⟩ _ (by decide) (by decide) (by decide) (by decide)

end ComponentLint

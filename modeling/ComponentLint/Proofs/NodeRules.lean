-- What the checks at one node say: each of them passes exactly when a plain
-- condition on the node and its children holds, and what it finds wrong is
-- about these nodes.
import ComponentLint.Model.Table
import ComponentLint.Proofs.Position
import ComponentLint.Proofs.WrittenIntegers
import Mathlib.Data.List.Chain

namespace ComponentLint

/-! ## When a check passes -/

theorem Kind.ofName?_eq_some_iff {s : String} {k : Kind} :
    Kind.ofName? s = some k ↔ k.name = s := by
  constructor
  · intro h
    have := List.find?_some h
    simpa using this
  · rintro rfl
    cases k <;> rfl

/-- Neighbours among siblings that the checks let stand. -/
def Apart (a b : Span) : Prop := a.order b ≠ .gt ∧ a.overlaps b = false

theorem checkSiblings_eq_ok_iff (parent : Option Heading) (hs : List Heading) :
    checkSiblings parent hs = .ok () ↔ hs.IsChain fun a b => Apart a.span b.span := by
  fun_induction checkSiblings parent hs with
  | case1 a b rest h => simp [Apart, h]
  | case2 a b rest h ho => simp [Apart, ho]
  | case3 a b rest h ho ih => simp [Apart, h, ho, ih]
  | case4 hs h =>
    rcases hs with _ | ⟨a, _ | ⟨b, rest⟩⟩
    · simp
    · simp
    · exact absurd rfl (h a b rest)

theorem checkContained_eq_ok_iff (parent : Heading) (hs : List Heading) :
    checkContained parent hs = .ok () ↔ ∀ c ∈ hs, parent.span.contains c.span = true := by
  induction hs with
  | nil => simp [checkContained]
  | cons c rest ih =>
    by_cases hc : parent.span.contains c.span = true
    · simp [checkContained, hc, ih]
    · simp [checkContained, hc]

/-- A node passes exactly when its kind is known, its span is of the file and not inverted, it
covers its children, and these stand apart. -/
theorem Entry.check_eq_ok_iff {file : String} {hs : List Heading} {e : Entry String}
    {e' : Entry Kind} :
    e.check file hs = .ok e' ↔ ∃ k : Kind, k.name = e.kind ∧ e' = { e with kind := k } ∧
      e.span.file = file ∧ e.span.start ≤ e.span.stop ∧
      (∀ c ∈ hs, e.span.contains c.span = true) ∧ hs.IsChain fun a b => Apart a.span b.span := by
  unfold Entry.check
  cases hk : Kind.ofName? e.kind with
  | none =>
    simp only [reduceCtorEq, false_iff]
    rintro ⟨k, hname, -⟩
    rw [Kind.ofName?_eq_some_iff.mpr hname] at hk
    cases hk
  | some kind =>
    have hkind : ∀ k : Kind, k.name = e.kind ↔ k = kind := by
      intro k
      rw [← Kind.ofName?_eq_some_iff, hk, Option.some.injEq, eq_comm]
    simp only [hkind, exists_eq_left]
    by_cases hf : e.span.file = file
    · by_cases hi : e.span.start ≤ e.span.stop
      · have hinv := (Span.inverted_eq_false_iff e.span).mpr hi
        simp only [hf, hi, hinv, ne_eq, not_true_eq_false, if_false, Bool.false_eq_true,
          bind_eq_ok_iff, true_and]
        constructor
        · rintro ⟨⟨⟩, hc, ⟨⟩, hs, he⟩
          cases he
          exact ⟨rfl, (checkContained_eq_ok_iff _ _).mp hc, (checkSiblings_eq_ok_iff _ _).mp hs⟩
        · rintro ⟨rfl, hc, hs⟩
          exact ⟨(), (checkContained_eq_ok_iff _ _).mpr hc, (),
            (checkSiblings_eq_ok_iff _ _).mpr hs, rfl⟩
      · have hinv : e.span.inverted = true := by
          rw [← Bool.not_eq_false, Span.inverted_eq_false_iff]
          exact hi
        simp [hf, hi, hinv]
    · simp [hf]

/-! ## What a defect is about -/

/-- The nodes that are named when a defect is put in words. -/
def Defect.named : Defect → List Heading
  | shared n => [n]
  | unknownKind n => [n]
  | foreignFile n _ => [n]
  | inverted n => [n]
  | outsideParent child parent => [child, parent]
  | unordered n parent => n :: parent.toList
  | overlapping n previous => [n, previous]
  | node _ _ => []
  | document _ _ => []

theorem Heading.exists_located_iff (n : Heading) (sentence : Except Number.LongInteger String) :
    (∃ text, n.located sentence = .ok text) ↔
      n.span.isShort = true ∧ ∃ text, sentence = .ok text := by
  unfold located
  rw [Span.toText_eq]
  cases sentence <;> cases n.span.isShort <;>
    simp [unlessLong, bind, Except.bind, pure, Except.pure]

/-- There are words for a defect exactly when the nodes in it start at short places. -/
theorem Defect.exists_wording_iff (d : Defect) :
    (∃ text, d.wording = .ok text) ↔ ∀ n ∈ d.named, n.span.isShort = true := by
  have hpair : ∀ (n n' : Heading) (f : String → String → String),
      (∃ text, (n.toText >>= fun t => n'.toText >>= fun t' => pure (f t t')) = .ok text) ↔
        n.span.isShort = true ∧ n'.span.isShort = true := by
    intro n n' f
    rw [← n.exists_toText_iff, ← n'.exists_toText_iff]
    cases n.toText <;> cases n'.toText <;> simp [bind, Except.bind, pure, Except.pure]
  cases d with
  | shared n =>
    simp only [wording, Heading.exists_located_iff, Value.exists_bind_pure_iff,
      Heading.exists_toText_iff, named, List.mem_singleton, forall_eq, and_self]
  | unknownKind n => simp [wording, Heading.exists_located_iff, named]
  | foreignFile n file => simp [wording, Heading.exists_located_iff, named]
  | inverted n => simp [wording, Heading.exists_located_iff, named]
  | outsideParent child parent =>
    rw [wording, Heading.exists_located_iff, hpair child parent]
    simp [named]
  | unordered n parent =>
    rw [wording, Heading.exists_located_iff, Value.exists_bind_pure_iff]
    cases parent with
    | none => simp [named]
    | some parent => simp [named, Heading.exists_toText_iff]
  | overlapping n previous =>
    rw [wording, Heading.exists_located_iff, hpair n previous]
    simp [named]
  | node path fault => simp [wording, named]
  | document origin fault => simp [wording, named]

theorem named_of_checkSiblings {parent : Option Heading} {hs : List Heading} {d : Defect}
    (h : checkSiblings parent hs = .error d) : ∀ n ∈ d.named, n ∈ hs ∨ n ∈ parent := by
  fun_induction checkSiblings parent hs with
  | case1 a b rest _ =>
    cases h
    intro n hn
    rcases List.mem_cons.mp hn with rfl | hparent
    · exact Or.inl (by simp)
    · exact Or.inr (Option.mem_toList.mp hparent)
  | case2 a b rest _ _ =>
    cases h
    simp [Defect.named]
  | case3 a b rest _ _ ih => exact fun n hn => (ih h n hn).imp_left (List.mem_cons_of_mem a)
  | case4 hs _ => cases h

theorem named_of_checkContained {parent : Heading} {hs : List Heading} {d : Defect}
    (h : checkContained parent hs = .error d) : ∀ n ∈ d.named, n ∈ hs ∨ n = parent := by
  induction hs with
  | nil => cases h
  | cons c rest ih =>
    rw [checkContained] at h
    split at h
    · exact fun n hn => (ih h n hn).imp_left (List.mem_cons_of_mem c)
    · cases h
      simp [Defect.named]

/-- What is wrong with a node is about it and its children. -/
theorem Entry.named_of_check {file : String} {hs : List Heading} {e : Entry String} {d : Defect}
    (h : e.check file hs = .error d) : ∀ n ∈ d.named, n = e.heading ∨ n ∈ hs := by
  unfold Entry.check at h
  split at h
  · cases h
    simp [Defect.named]
  · split at h
    · cases h
      simp [Defect.named]
    · split at h
      · cases h
        simp [Defect.named]
      · rcases bind_eq_error_iff.mp h with hcontained | ⟨⟨⟩, -, h⟩
        · exact fun n hn => (named_of_checkContained hcontained n hn).symm
        · rcases bind_eq_error_iff.mp h with hsiblings | ⟨⟨⟩, -, hpure⟩
          · intro n hn
            refine (named_of_checkSiblings hsiblings n hn).symm.imp_left fun hparent => ?_
            exact (Option.some.inj hparent).symm
          · cases hpure

end ComponentLint

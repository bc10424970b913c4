-- Comments at the end of a line. A line comment that is put after a blank at
-- the end of a line changes neither whether the line holds code nor how many
-- block comments are open after it, also when the line ends inside a string
-- literal or inside a block comment. So it moves no measure.
import ComponentLint.Source.Comment
import Mathlib.Data.List.Forall2

namespace ComponentLint.Source

open ComponentLint.Text

/-! ## Scanning a line -/

/-- A blank and a line comment, free of what ends a literal or a block comment. -/
structure Trailing (suffix : List Char) : Prop where
  start : ∃ rest, suffix = ' ' :: '/' :: '/' :: rest
  plain : ∀ c ∈ suffix, c ≠ '*' ∧ c ≠ '"' ∧ c ≠ '\\'

theorem scan_code_eq {cs : List Char} (h : ∀ c ∈ cs, c ≠ '/' ∧ c ≠ '"') :
    scan .code cs = (cs, .code) := by
  induction cs with
  | nil => rw [scan]
  | cons c cs ih =>
    have hc := h c (by simp)
    rw [scan.eq_9 c cs (fun _ hslash => absurd hslash hc.1) (fun _ hslash => absurd hslash hc.1),
      if_neg hc.2, ih fun d hd => h d (by simp [hd])]

theorem scan_comment_eq {cs : List Char} (more : Nat) (h : ∀ c ∈ cs, c ≠ '*') :
    scan (.comment more) cs = ([], .comment more) := by
  induction cs with
  | nil => rw [scan]
  | cons c cs ih =>
    rw [scan, ih fun d hd => h d (by simp [hd])]
    · rintro rest - rfl
      exact h '*' (by simp) rfl
    · rintro rest rfl -
      exact h '*' (by simp) rfl

theorem scan_literal_eq {cs : List Char} (h : ∀ c ∈ cs, c ≠ '"' ∧ c ≠ '\\') :
    scan .literal cs = (cs, .literal) := by
  induction cs with
  | nil => rw [scan]
  | cons c cs ih =>
    rw [scan, if_neg (h c (by simp)).1, ih fun d hd => h d (by simp [hd])]
    rintro d rest rfl -
    exact (h '\\' (by simp)).2 rfl

/-- Text put behind a line makes no pair of signs where the line made none, unless it does so with
the last sign of the line. -/
theorem no_pair_append {c first second : Char} {cs behind : List Char}
    (hpair : ∀ rest, c = first → cs = second :: rest → False)
    (hlast : c = first → cs = [] → behind.head? ≠ some second) :
    ∀ rest, c = first → cs ++ behind = second :: rest → False := by
  intro rest hc heq
  cases cs with
  | nil =>
    rw [List.nil_append] at heq
    exact hlast hc rfl (by rw [heq]; rfl)
  | cons d cs =>
    cases heq
    exact hpair cs hc rfl

variable {suffix : List Char}

/-- What trails a line makes no pair of signs at its end. -/
theorem Trailing.no_pair (h : Trailing suffix) {c first second : Char} {cs : List Char}
    (hsecond : second ≠ ' ') (hpair : ∀ rest, c = first → cs = second :: rest → False) :
    ∀ rest, c = first → cs ++ suffix = second :: rest → False := by
  obtain ⟨tail, rfl⟩ := h.start
  refine no_pair_append hpair ?_
  rintro - - hhead
  cases hhead
  exact hsecond rfl

/-- The scanner goes over a line and what trails it as over the line, up to the depth after it and,
outside of literals, up to blanks in the code. -/
theorem Trailing.scan_append (h : Trailing suffix) (mode : Mode) (cs : List Char) :
    (scan mode (cs ++ suffix)).2.depth = (scan mode cs).2.depth ∧
      (mode ≠ .literal →
        allBlank (scan mode (cs ++ suffix)).1 = allBlank (scan mode cs).1) := by
  -- The induction follows the scanner: up to the end of the line it takes the same steps, and what
  -- trails the line is scanned in the mode that the line ends in.
  induction mode, cs using scan.induct with
  | case1 mode =>
    rw [List.nil_append, scan]
    cases mode with
    | code =>
      obtain ⟨rest, rfl⟩ := h.start
      have hblank : isBlank ' ' = true := by decide
      simp [scan, allBlank, hblank]
    | literal => simp [scan_literal_eq fun c hc => (h.plain c hc).2]
    | comment more => simp [scan_comment_eq more fun c hc => (h.plain c hc).1]
  | case2 more rest ih =>
    simp only [List.cons_append, scan]
    exact ⟨ih.1, fun _ => ih.2 (by simp)⟩
  | case3 more rest ih =>
    simp only [List.cons_append, scan]
    exact ⟨ih.1, fun _ => ih.2 (by cases more <;> simp [Mode.atDepth])⟩
  | case4 more c rest hopen hclose ih =>
    rw [List.cons_append, scan, scan]
    · exact ⟨ih.1, fun _ => ih.2 (by simp)⟩
    · exact hopen
    · exact hclose
    · exact h.no_pair (by decide) hopen
    · exact h.no_pair (by decide) hclose
  | case5 c rest code after hscan ih =>
    simp only [List.cons_append, scan]
    exact ⟨ih.1, fun hmode => absurd rfl hmode⟩
  | case6 c rest hesc code after hscan ih =>
    refine ⟨?_, fun hmode => absurd rfl hmode⟩
    rw [List.cons_append, scan.eq_6 c rest hesc]
    -- A backslash that ended the line now escapes the blank after it.
    by_cases hlast : c = '\\' ∧ rest = []
    · obtain ⟨rfl, rfl⟩ := hlast
      obtain ⟨tail, rfl⟩ := h.start
      have hplain : ∀ c ∈ '/' :: '/' :: tail, c ≠ '"' ∧ c ≠ '\\' :=
        fun c hc => (h.plain c (List.mem_cons_of_mem _ hc)).2
      simp [scan, scan_literal_eq hplain, Mode.depth]
    · rw [scan.eq_6 c (rest ++ suffix)]
      · exact ih.1
      · rintro d tail rfl heq
        cases rest with
        | nil => exact hlast ⟨rfl, rfl⟩
        | cons e rest => exact hesc e rest rfl rfl
  | case7 rest => simp [scan]
  | case8 rest ih =>
    simp only [List.cons_append, scan]
    exact ⟨ih.1, fun _ => ih.2 (by simp)⟩
  | case9 c rest hline hopen code after hscan ih =>
    rw [List.cons_append, scan, scan]
    · refine ⟨ih.1, fun _ => ?_⟩
      by_cases hquote : c = '"'
      · subst hquote
        rfl
      · rw [if_neg hquote] at ih ⊢
        simp only [allBlank, List.all_cons] at ih ⊢
        rw [ih.2 (by simp)]
    · exact hline
    · exact hopen
    · exact h.no_pair (by decide) hline
    · exact h.no_pair (by decide) hopen

/-! ## Measures -/

/-- Two lines with code on both or on neither, and with the same effect on the open comments. -/
def SameCode (a b : String) : Prop :=
  ∀ depth, (stripComments depth a).2 = (stripComments depth b).2 ∧
    allBlank (stripComments depth a).1.toList = allBlank (stripComments depth b).1.toList

theorem Trailing.sameCode {suffix : String} (h : Trailing suffix.toList) (line : String) :
    SameCode (line ++ suffix) line := by
  intro depth
  have hscan := h.scan_append (Mode.atDepth depth) line.toList
  rw [← String.toList_append] at hscan
  simp only [stripComments, String.toList_ofList]
  exact ⟨hscan.1, hscan.2 (by cases depth <;> simp [Mode.atDepth])⟩

theorem forall₂_sameCode_modify {f : String → String} (hf : ∀ line, SameCode (f line) line)
    (place : Nat) (lines : List String) :
    List.Forall₂ SameCode (lines.modify place f) lines := by
  have hrefl : ∀ rest : List String, List.Forall₂ SameCode rest rest :=
    fun rest => List.forall₂_same.mpr fun line _ depth => ⟨rfl, rfl⟩
  induction lines generalizing place with
  | nil => simp
  | cons line rest ih =>
    cases place with
    | zero => exact .cons (hf line) (hrefl rest)
    | succ place => exact .cons (fun depth => ⟨rfl, rfl⟩) (ih place)

variable {as bs : List String}

theorem depthAfter_eq_of_sameCode (h : List.Forall₂ SameCode as bs) (depth : Nat) :
    depthAfter depth as = depthAfter depth bs := by
  induction h generalizing depth with
  | nil => rfl
  | cons hline _ ih =>
    simp only [depthAfter, List.foldl_cons] at ih ⊢
    rw [(hline depth).1, ih]

theorem countCode_eq_of_sameCode (h : List.Forall₂ SameCode as bs) (depth : Nat) :
    countCode depth as = countCode depth bs := by
  induction h generalizing depth with
  | nil => rfl
  | cons hline _ ih =>
    simp only [countCode]
    rw [(hline depth).1, (hline depth).2, ih]

theorem forall₂_slice (h : List.Forall₂ SameCode as bs) (first last : Int) :
    List.Forall₂ SameCode (slice as first last) (slice bs first last) := by
  rw [slice, slice, h.length_eq]
  exact List.forall₂_drop _ (List.forall₂_take _ h)

/-- Lines with the same code measure the same. -/
theorem measure_eq_of_sameCode (h : List.Forall₂ SameCode as bs) (s : Span) :
    measure as s = measure bs s := by
  cases h with
  | nil => rfl
  | cons hline hrest =>
    have hall := List.Forall₂.cons hline hrest
    simp only [measure, List.isEmpty_cons, Bool.false_eq_true, if_false]
    rw [hall.length_eq, depthAfter_eq_of_sameCode (forall₂_slice hall _ _),
      countCode_eq_of_sameCode (forall₂_slice hall _ _)]

end ComponentLint.Source

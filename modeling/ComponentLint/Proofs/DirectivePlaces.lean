-- Directives and comments. A directive is found in the plain characters of a
-- line, a comment by going over all lines before it as well. The two agree on
-- a directive that stands in plain code; inside a literal and inside a block
-- comment they go apart.
import ComponentLint.Proofs.CodePlaces
import ComponentLint.Proofs.DirectiveGrammar

namespace ComponentLint

open ComponentLint.Text ComponentLint.Source

/-! ## Directives on their lines -/

theorem Directive.Chosen.exists_slashes {line before rest : List Char} {forNext : Bool}
    (h : Chosen line before forNext rest) : ∃ tail, line = before ++ '/' :: '/' :: tail := by
  obtain ⟨cs, hline, blanks, -, hcs, -⟩ := h.splits
  refine ⟨blanks ++ "viewlint:".toList ++ (verb forNext).toList ++ rest, ?_⟩
  rw [hline, hcs]
  simp

/-- Where a suppression comes from: its line has a directive, which it stands at. -/
theorem Suppression.of_mem_ofLines {file : String} {lines : List String} {s : Suppression}
    (hs : s ∈ ofLines file lines) {place : Nat} (hplace : s.line = .int (place + 1)) :
    ∃ line d, lines[place]? = some line ∧ Directive.find? line = some d ∧
      s.column = .int (d.before.length + 1) ∧
      s.target = .int (if d.targetsNext then place + 2 else place + 1) := by
  rw [ofLines, mem_ofLinesFrom] at hs
  obtain ⟨i, line, d, hline, hd, hs⟩ := hs
  obtain ⟨id, -, rfl⟩ := List.mem_map.mp hs
  simp only [Numeral.int.injEq] at hplace
  obtain rfl : i = place := by omega
  refine ⟨line, d, hline, hd, rfl, ?_⟩
  simp only [Numeral.int.injEq]
  split <;> omega

/-- A line with a directive has a suppression. -/
theorem Suppression.exists_mem_ofLines {file : String} {lines : List String} {place : Nat}
    {line : String} {d : Directive} (hline : lines[place]? = some line)
    (hd : Directive.find? line = some d) :
    ∃ s ∈ ofLines file lines, s.line = .int (place + 1) := by
  have hids : d.ruleIds ≠ [] := by
    unfold Directive.ruleIds
    split
    · simp
    · assumption
  obtain ⟨id, hid⟩ := List.exists_mem_of_ne_nil _ hids
  refine ⟨_, mem_ofLinesFrom.mpr ⟨place, line, d, hline, hd, List.mem_map_of_mem hid⟩, ?_⟩
  simp only [Numeral.int.injEq]
  omega

/-- From the column of a directive on, a line has no code when the directive stands in plain code
or behind another line comment. In a literal the slashes of the directive are code, and in a block
comment code comes only behind a sign that closes a comment there. -/
theorem directives_in_plain_code_are_comments (file : String) (lines : List String)
    (s : Suppression) (hs : s ∈ Suppression.ofLines file lines) (place col : Nat)
    (hplace : s.line = .int (place + 1)) (hcol : s.column = .int (col + 1)) :
    ((stripLines 0 lines)[place]?).map Prod.fst = some (String.ofList
      (marked (lineAt lines place) (keeps (modeBefore lines place) (lineAt lines place)))) ∧
    (∃ tail, (lineAt lines place).drop col = '/' :: '/' :: tail) ∧
    (modeAt lines place col = .code → ∀ i, col ≤ i → ¬ CodeAt lines place i) ∧
    (modeAt lines place col = .literal → CodeAt lines place col ∧ CodeAt lines place (col + 1)) ∧
    ∀ more, modeAt lines place col = .comment more → ∀ i, col ≤ i → CodeAt lines place i →
      ∃ ahead behind, lineAt lines place = ahead ++ '*' :: '/' :: behind ∧
        col ≤ ahead.length + 1 ∧ ahead.length + 1 < i := by
  obtain ⟨line, d, hline, hd, hcolumn, -⟩ := Suppression.of_mem_ofLines hs hplace
  obtain ⟨rest, hchosen, -⟩ := Directive.chosen_of_find? hd
  obtain ⟨tail, htail⟩ := hchosen.exists_slashes
  rw [hcol, Numeral.int.injEq] at hcolumn
  obtain rfl : col = d.before.length := by omega
  have hat : lineAt lines place = d.before ++ '/' :: '/' :: tail := by
    rw [lineAt_eq hline, htail]
  refine ⟨?_, ⟨tail, by rw [hat, List.drop_left]⟩, ?_, ?_, ?_⟩
  · rw [lineAt_eq hline]
    exact stripLines_eq_marked hline
  · intro hmode i hi
    exact not_codeAt_of_code hat hmode hi
  · exact codeAt_of_literal hat
  · intro more hmode i hi hcode
    exact exists_close_of_comment hat hmode hi hcode

/-- A link, whose address has two slashes, with a directive behind it. -/
def linkLine : String := "Link(\"https://a\") // viewlint:ignore x"

theorem linkLine_ends_in_a_comment :
    ∃ s ∈ Suppression.ofLines "A" [linkLine], s.line = .int 1 ∧ s.column = .int 19 ∧
      modeAt [linkLine] 0 18 = .code ∧ ∀ i, 18 ≤ i → ¬ CodeAt [linkLine] 0 i := by
  have hmode : modeAt [linkLine] 0 18 = .code := by decide
  have hfound : (⟨"A", "x", .int 1, .int 1, .int 19⟩ : Suppression) ∈
      Suppression.ofLines "A" [linkLine] := by decide
  refine ⟨_, hfound, rfl, rfl, hmode, ?_⟩
  exact (directives_in_plain_code_are_comments "A" [linkLine] _ hfound 0 18 rfl rfl).2.2.1 hmode

theorem literals_hold_directives :
    ¬ ∀ (file : String) (lines : List String), ∀ s ∈ Suppression.ofLines file lines,
      ∀ place col : Nat, s.line = .int (place + 1) → s.column = .int (col + 1) →
        ∀ i, col ≤ i → ¬ CodeAt lines place i := by
  intro h
  have hfound : (⟨"A.swift", "all", .int 1, .int 1, .int 7⟩ : Suppression) ∈
      Suppression.ofLines "A.swift" ["Text(\"// viewlint:ignore\")"] := by decide
  exact h _ _ _ hfound 0 6 rfl rfl 6 (Nat.le_refl 6) (by decide)

/-! ## The line that a directive is meant for -/

/-- Blanks at the start of a line leave the scanner in the middle of what it was. -/
theorem Source.modeAt_of_blank {lines : List String} {place : Nat} {before behind : List Char}
    (hline : lineAt lines place = before ++ behind) (hblank : ∀ c ∈ before, isBlank c) :
    modeAt lines place before.length = modeBefore lines place := by
  have hplain : ∀ d, isBlank d = false → ∀ c ∈ before, c ≠ d := by
    rintro d hd c hc rfl
    rw [hblank c hc] at hd
    cases hd
  rw [modeAt, hline, List.take_left, modeBefore]
  cases depthAfter 0 (lines.take place) with
  | zero =>
    have hscan := scan_code_eq fun c hc =>
      ⟨hplain '/' (by decide) c hc, hplain '"' (by decide) c hc⟩
    exact congrArg Prod.snd hscan
  | succ more => exact congrArg Prod.snd (scan_comment_eq more (hplain '*' (by decide)))

section

variable {lines : List String} {place : Nat} {line : String} {before tail : List Char}
  (hline : lines[place]? = some line) (htail : line.toList = before ++ '/' :: '/' :: tail)
include hline htail

/-- Behind blanks and two slashes a line has code only where a block comment was open before the
line and ends on it. -/
theorem Source.exists_close_of_blank (hblank : ∀ c ∈ before, isBlank c)
    (hcode : ¬ CommentOnly lines place) :
    0 < depthAfter 0 (lines.take place) ∧ ∃ ahead behind,
      line.toList = ahead ++ '*' :: '/' :: behind ∧ before.length ≤ ahead.length + 1 := by
  have hat := (lineAt_eq hline).trans htail
  have hmode := modeAt_of_blank hat hblank
  rw [commentOnly_iff hline] at hcode
  push Not at hcode
  obtain ⟨col, c, hc, hkept, hplain⟩ := hcode
  -- The code is not among the blanks, so it stands at the slashes or behind them.
  have hcol : before.length ≤ col := by
    by_contra hlt
    rw [htail, List.getElem?_append_left (by omega)] at hc
    exact hplain (hblank c (List.mem_of_getElem? hc))
  rw [modeBefore] at hmode
  cases hdepth : depthAfter 0 (lines.take place) with
  | zero =>
    rw [hdepth] at hmode
    exact absurd hkept (not_codeAt_of_code hat hmode hcol)
  | succ more =>
    rw [hdepth] at hmode
    obtain ⟨ahead, behind, hclose, hahead, -⟩ := exists_close_of_comment hat hmode hcol hkept
    exact ⟨Nat.succ_pos more, ahead, behind, (lineAt_eq hline).symm.trans hclose, hahead⟩

/-- On a comment-only line, what is not blank before two slashes is comment. -/
theorem Source.exists_comment_of_not_blank (hblank : ¬ ∀ c ∈ before, isBlank c)
    (honly : CommentOnly lines place) :
    ∃ col c, before[col]? = some c ∧ isBlank c = false ∧ ¬ CodeAt lines place col := by
  push Not at hblank
  obtain ⟨c, hc, hplain⟩ := hblank
  obtain ⟨col, hcol⟩ := List.mem_iff_getElem?.mp hc
  refine ⟨col, c, hcol, by simpa using hplain, fun hkept => hplain ?_⟩
  refine (commentOnly_iff hline).mp honly col c ?_ hkept
  rw [htail, List.getElem?_append_left (List.getElem?_eq_some_iff.mp hcol).1, hcol]

end

/-- A plain directive is meant for the next line when only blanks stand before it. -/
theorem Suppression.target_of_plain {file : String} {lines : List String} {place : Nat}
    {line : String} {before rest : List Char} (hline : lines[place]? = some line)
    (hplain : Directive.Chosen line.toList before false rest) {s : Suppression}
    (hs : s ∈ ofLines file lines) (hplace : s.line = .int (place + 1)) :
    s.target = .int (if before.all isBlank then place + 2 else place + 1) := by
  obtain ⟨line', d, hline', hd, -, htarget⟩ := of_mem_ofLines hs hplace
  rw [hline, Option.some.injEq] at hline'
  subst hline'
  obtain ⟨rest', hchosen, -⟩ := Directive.chosen_of_find? hd
  obtain ⟨hbefore, hnext, -⟩ := hchosen.unique hplain
  rw [htarget, Directive.targetsNext, hbefore, hnext, Bool.false_or, allBlank]

/-- A plain directive is meant for the next line exactly when its line is comment-only, where no
block comment is open before the line and no comment stands before the directive. They can go apart
in two ways only: a directive behind blanks is meant for the next line, also where the block comment
that it is in ends and code follows; and one on a comment-only line is meant for that line when some
other comment stands before it. -/
theorem plain_directives_look_at_the_text_before_them (file : String) (lines : List String)
    (place : Nat) (line : String) (before rest : List Char) (hline : lines[place]? = some line)
    (hplain : Directive.Chosen line.toList before false rest) :
    (CommentOnly lines place ↔ measure lines ⟨file, place + 1, 1, place + 1, 1⟩ = 0) ∧
    (∃ s ∈ Suppression.ofLines file lines, s.line = .int (place + 1)) ∧
    ∀ s ∈ Suppression.ofLines file lines, s.line = .int (place + 1) →
      (depthAfter 0 (lines.take place) = 0 →
        (∀ col c, before[col]? = some c → isBlank c ∨ CodeAt lines place col) →
        (s.target = .int (place + 2) ↔ CommentOnly lines place)) ∧
      (s.target = .int (place + 2) → ¬ CommentOnly lines place →
        0 < depthAfter 0 (lines.take place) ∧ ∃ ahead behind,
          line.toList = ahead ++ '*' :: '/' :: behind ∧ before.length ≤ ahead.length + 1) ∧
      (CommentOnly lines place → s.target ≠ .int (place + 2) →
        s.target = .int (place + 1) ∧
        ∃ col c, before[col]? = some c ∧ isBlank c = false ∧ ¬ CodeAt lines place col) := by
  obtain ⟨tail, htail⟩ := hplain.exists_slashes
  refine ⟨commentOnly_iff_measure hline file 1 1, ?_, ?_⟩
  · cases hd : Directive.find? line with
    | none => exact absurd hplain.splits (Directive.not_splits_of_findFrom hd _ _ _)
    | some d => exact Suppression.exists_mem_ofLines hline hd
  intro s hs hplace
  have htarget := Suppression.target_of_plain hline hplain hs hplace
  have hnext : s.target = .int (place + 2) → ∀ c ∈ before, isBlank c := by
    intro hnext
    rw [← List.all_eq_true]
    by_contra hblank
    rw [htarget, if_neg hblank, Numeral.int.injEq] at hnext
    omega
  have hown : s.target ≠ .int (place + 2) → ¬ before.all isBlank := by
    intro hne hblank
    rw [htarget, if_pos hblank] at hne
    exact hne rfl
  have hbehind := fun h => exists_close_of_blank hline htail (hnext h)
  have hahead : CommentOnly lines place → s.target ≠ .int (place + 2) →
      ∃ col c, before[col]? = some c ∧ isBlank c = false ∧ ¬ CodeAt lines place col := by
    intro honly hne
    exact exists_comment_of_not_blank hline htail (mt List.all_eq_true.mpr (hown hne)) honly
  refine ⟨?_, hbehind, ?_⟩
  · intro hdepth hcode
    constructor
    · intro h
      by_contra honly
      have := (hbehind h honly).1
      omega
    · intro honly
      by_contra hne
      obtain ⟨col, c, hc, hplainChar, hcomment⟩ := hahead honly hne
      rcases hcode col c hc with hblank | hkept
      · rw [hplainChar] at hblank
        cases hblank
      · exact hcomment hkept
  · intro honly hne
    refine ⟨?_, hahead honly hne⟩
    rw [htarget, if_neg (hown hne)]

theorem linkLine_is_its_own_target :
    ∃ before rest, Directive.Chosen linkLine.toList before false rest ∧
      ∃ s ∈ Suppression.ofLines "A" [linkLine], s.target = .int 1 ∧ ¬ CommentOnly [linkLine] 0 := by
  have hd : Directive.find? linkLine =
      some ⟨"Link(\"https://a\") ".toList, false, " x".toList⟩ := by decide
  obtain ⟨rest, hchosen, -⟩ := Directive.chosen_of_find? hd
  obtain ⟨-, -, hall⟩ :=
    plain_directives_look_at_the_text_before_them "A" [linkLine] 0 linkLine _ rest rfl hchosen
  have hfound : (⟨"A", "x", .int 1, .int 1, .int 19⟩ : Suppression) ∈
      Suppression.ofLines "A" [linkLine] := by decide
  have hcode : ∀ col < 18, CodeAt [linkLine] 0 col := by decide
  have hagree := (hall _ hfound rfl).1 rfl fun col c hc =>
    Or.inr (hcode col (List.getElem?_eq_some_iff.mp hc).1)
  refine ⟨_, rest, hchosen, _, hfound, rfl, fun honly => ?_⟩
  exact absurd (hagree.mpr honly) (by decide)

theorem doc_comments_are_their_own_targets :
    ¬ ∀ (file : String) (lines : List String) (place : Nat) (line : String)
      (before rest : List Char), lines[place]? = some line →
      Directive.Chosen line.toList before false rest →
      ∀ s ∈ Suppression.ofLines file lines, s.line = .int (place + 1) →
        (s.target = .int (place + 2) ↔ CommentOnly lines place) := by
  intro h
  have hd : Directive.find? "/// viewlint:ignore body-size-limit" =
      some ⟨['/'], false, " body-size-limit".toList⟩ := by decide
  have hfound : (⟨"A.swift", "body-size-limit", .int 1, .int 1, .int 2⟩ : Suppression) ∈
      Suppression.ofLines "A.swift" ["/// viewlint:ignore body-size-limit"] := by decide
  obtain ⟨rest, hchosen, -⟩ := Directive.chosen_of_find? hd
  have hagree := h _ _ 0 _ _ _ rfl hchosen _ hfound rfl
  exact absurd (hagree.mpr ⟨("", 0), by decide, by decide⟩) (by decide)

end ComponentLint

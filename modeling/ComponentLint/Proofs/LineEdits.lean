-- Edits of one line of a text. Text without line ends that is put at the end
-- of a line lengthens that line, and leaves all other lines as they are.
import ComponentLint.Text.Basic

namespace ComponentLint.Text

/-! ## Lines and characters -/

theorem splitLines_cons {c : Char} (h : isLineEnd c = false) (rest : List Char) :
    splitLines (c :: rest) = consLine c (splitLines rest) := by
  rw [splitLines]
  · simp [h]
  · rintro _ rfl
    cases h

theorem splitLines_end {c : Char} {rest : List Char} (h : isLineEnd c = true)
    (hpair : c = '\r' → rest.head? ≠ some '\n') :
    splitLines (c :: rest) = [] :: splitLines rest := by
  rw [splitLines]
  · simp [h]
  · rintro more rfl rfl
    exact hpair rfl rfl

/-- Text without line ends before a line end is a line. -/
theorem splitLines_append {line rest : List Char} {more : List (List Char)}
    (h : ∀ c ∈ line, isLineEnd c = false) (hrest : splitLines rest = [] :: more) :
    splitLines (line ++ rest) = line :: more := by
  induction line with
  | nil => exact hrest
  | cons c line ih =>
    rw [List.cons_append, splitLines_cons (h c (by simp)), ih fun d hd => h d (by simp [hd])]
    rfl

/-- Text without line ends is one line, unless it is empty. -/
theorem splitLines_eq_singleton {line : List Char} (h : ∀ c ∈ line, isLineEnd c = false)
    (hne : line ≠ []) : splitLines line = [line] := by
  induction line with
  | nil => exact absurd rfl hne
  | cons c line ih =>
    rw [splitLines_cons (h c (by simp))]
    by_cases hline : line = []
    · subst hline
      rfl
    · rw [ih (fun d hd => h d (by simp [hd])) hline]
      rfl

/-! ## Appending to a line -/

/-- A text with something put at the end of the line at a place, counted from zero. The ends of the
lines stay as they are. -/
def appendToLine (suffix : List Char) (place : Nat) : List Char → List Char
  | [] => if place = 0 then suffix else []
  | '\r' :: '\n' :: rest =>
    if place = 0 then suffix ++ '\r' :: '\n' :: rest
    else '\r' :: '\n' :: appendToLine suffix (place - 1) rest
  | c :: rest =>
    if isLineEnd c then
      if place = 0 then suffix ++ c :: rest else c :: appendToLine suffix (place - 1) rest
    else c :: appendToLine suffix place rest

variable {suffix : List Char} (hends : ∀ c ∈ suffix, isLineEnd c = false) (hne : suffix ≠ [])

include hends hne in
/-- At the first line: it gets longer, and is there now if it was not. -/
theorem splitLines_appendToLine_zero (cs : List Char) :
    splitLines (appendToLine suffix 0 cs) =
      ((splitLines cs).head?.getD [] ++ suffix) :: (splitLines cs).tail := by
  fun_induction splitLines cs with
  | case1 => simp [appendToLine, splitLines_eq_singleton hends hne]
  | case2 rest ih =>
    simp only [appendToLine, if_true]
    rw [splitLines_append hends (by rw [splitLines])]
    simp
  | case3 c rest hpair hend ih =>
    have hsplit : splitLines (c :: rest) = [] :: splitLines rest := by
      rw [splitLines]
      · simp [hend]
      · exact hpair
    rw [appendToLine]
    · simp [hend, splitLines_append hends hsplit]
    · exact hpair
  | case4 c rest hpair hend ih =>
    rw [appendToLine]
    · simp only [hend, Bool.false_eq_true, if_false]
      rw [splitLines_cons (by simpa using hend), ih]
      cases splitLines rest with
      | nil => rfl
      | cons line more => rfl
    · exact hpair

include hends in
/-- The edit puts no line feed in front. -/
theorem head?_appendToLine_ne {place : Nat} {cs : List Char} (h : cs.head? ≠ some '\n') :
    (appendToLine suffix place cs).head? ≠ some '\n' := by
  have hsuffix : ∀ rest : List Char, rest.head? ≠ some '\n' →
      (suffix ++ rest).head? ≠ some '\n' := by
    intro rest hrest
    cases suffix with
    | nil => exact hrest
    | cons c suffix =>
      have := hends c (by simp)
      simp only [List.cons_append, List.head?_cons, ne_eq, Option.some.injEq]
      rintro rfl
      cases this
  fun_cases appendToLine suffix place cs with
  | case1 h0 => simpa using hsuffix [] (by simp)
  | case2 h0 => simp
  | case3 rest h0 => exact hsuffix _ (by simp)
  | case4 rest h0 => simp
  | case5 c rest hpair hend h0 => exact hsuffix _ (by simpa using h)
  | case6 c rest hpair hend h0 => simpa using h
  | case7 c rest hpair hend => simpa using h

theorem consLine_modify (c : Char) (lines : List (List Char)) (place : Nat)
    (h : place < lines.length) :
    consLine c (lines.modify place (· ++ suffix)) =
      (consLine c lines).modify place (· ++ suffix) := by
  cases lines with
  | nil => simp at h
  | cons line more =>
    cases place with
    | zero => rfl
    | succ place => rfl

include hends hne in
/-- Text put at the end of a line lengthens that line only. -/
theorem splitLines_appendToLine (place : Nat) (cs : List Char)
    (h : place < (splitLines cs).length) :
    splitLines (appendToLine suffix place cs) = (splitLines cs).modify place (· ++ suffix) := by
  fun_induction splitLines cs generalizing place with
  | case1 => simp at h
  | case2 rest ih =>
    rcases place with _ | place
    · rw [splitLines_appendToLine_zero hends hne, splitLines]
      rfl
    · rw [appendToLine, if_neg (by simp), splitLines, Nat.add_sub_cancel,
        ih place (by simpa using h)]
      rfl
  | case3 c rest hpair hend ih =>
    have hfirst : c = '\r' → rest.head? ≠ some '\n' := by
      rintro rfl hrest
      rcases rest with _ | ⟨d, rest⟩
      · cases hrest
      · cases hrest
        exact hpair rest rfl rfl
    rcases place with _ | place
    · rw [splitLines_appendToLine_zero hends hne, splitLines_end hend hfirst]
      rfl
    · rw [appendToLine]
      · simp only [hend, if_true, Nat.add_one_ne_zero, if_false, Nat.add_sub_cancel]
        rw [splitLines_end hend fun hc => head?_appendToLine_ne hends (hfirst hc),
          ih place (by simpa using h)]
        rfl
      · exact hpair
  | case4 c rest hpair hend ih =>
    have hplain : isLineEnd c = false := by simpa using hend
    rcases place with _ | place
    · rw [splitLines_appendToLine_zero hends hne, splitLines_cons hplain]
      cases splitLines rest with
      | nil => rfl
      | cons line more => rfl
    · have hplace : place + 1 < (splitLines rest).length := by
        cases hrest : splitLines rest with
        | nil => simp [hrest, consLine] at h
        | cons line more => simpa [hrest, consLine] using h
      rw [appendToLine]
      · simp only [hplain, Bool.false_eq_true, if_false]
        rw [splitLines_cons hplain, ih (place + 1) hplace, consLine_modify c _ _ hplace]
      · exact hpair

theorem linesOf_appendToLine (s suffix : String) (place : Nat)
    (hends : ∀ c ∈ suffix.toList, isLineEnd c = false) (hne : suffix.toList ≠ [])
    (h : place < (linesOf s).length) :
    linesOf (String.ofList (appendToLine suffix.toList place s.toList)) =
      (linesOf s).modify place (· ++ suffix) := by
  unfold linesOf at *
  rw [List.length_map] at h
  rw [String.toList_ofList, splitLines_appendToLine hends hne place s.toList h]
  apply List.ext_getElem?
  intro i
  simp only [List.getElem?_map, List.getElem?_modify]
  cases (splitLines s.toList)[i]? with
  | none => rfl
  | some line =>
    by_cases hi : place = i
    · simp [hi]
    · simp [hi]

end ComponentLint.Text

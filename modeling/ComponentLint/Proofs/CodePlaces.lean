-- Which places of a line are code. The scanner gives the code of a line as a
-- text; here each character of the line is marked as code or comment, so that
-- one can ask about the characters at and behind a given column.
import ComponentLint.Proofs.CommentRemoval
import ComponentLint.Proofs.Comments
import ComponentLint.Proofs.LineCounts

namespace ComponentLint.Source

open ComponentLint.Text

/-! ## Marks -/

/-- For each character of a piece, whether it is code. -/
def Piece.marks (p : Piece) : List Bool := List.replicate p.text.length p.isCode

/-- For each character, whether the scanner keeps it as code. -/
def keeps (mode : Mode) (cs : List Char) : List Bool := (pieces mode cs).flatMap Piece.marks

section

variable {c : Char} {rest : List Char}

theorem keeps_nil (mode : Mode) : keeps mode [] = [] := by
  rw [keeps, pieces]
  rfl

theorem keeps_comment {more : Nat} (hopen : ∀ tail, c = '/' → rest = '*' :: tail → False)
    (hclose : ∀ tail, c = '*' → rest = '/' :: tail → False) :
    keeps (.comment more) (c :: rest) = false :: keeps (.comment more) rest := by
  rw [keeps, pieces.eq_4 more c rest hopen hclose]
  rfl

theorem keeps_literal (hescape : ∀ d tail, c = '\\' → rest = d :: tail → False) :
    keeps .literal (c :: rest) = true :: keeps (if c = '"' then .code else .literal) rest := by
  rw [keeps, pieces.eq_6 c rest hescape]
  split <;> rfl

theorem keeps_escape (c : Char) (rest : List Char) :
    keeps .literal ('\\' :: c :: rest) = true :: true :: keeps .literal rest := by
  rw [keeps, pieces]
  rfl

theorem keeps_lineComment (rest : List Char) :
    keeps .code ('/' :: '/' :: rest) = List.replicate (rest.length + 2) false := by
  rw [keeps, pieces, List.flatMap_singleton]
  rfl

theorem keeps_code (hline : ∀ tail, c = '/' → rest = '/' :: tail → False)
    (hopen : ∀ tail, c = '/' → rest = '*' :: tail → False) :
    keeps .code (c :: rest) = true :: keeps (if c = '"' then .literal else .code) rest := by
  rw [keeps, pieces.eq_9 c rest hline hopen]
  split <;> rfl

end

/-- The characters that are marked. -/
def marked (cs : List Char) (marks : List Bool) : List Char :=
  ((cs.zip marks).filter fun p => p.2).map fun p => p.1

theorem marked_append {cs cs' : List Char} {marks marks' : List Bool}
    (h : cs.length = marks.length) :
    marked (cs ++ cs') (marks ++ marks') = marked cs marks ++ marked cs' marks' := by
  rw [marked, List.zip_append h, List.filter_append, List.map_append]
  rfl

theorem Piece.marked_marks (p : Piece) :
    marked p.text p.marks = if p.isCode then p.text else [] := by
  unfold marked Piece.marks
  split
  · rename_i hcode
    rw [hcode, List.filter_eq_self.mpr, List.map_fst_zip (by simp)]
    intro e he
    exact List.eq_of_mem_replicate (List.of_mem_zip he).2
  · rename_i hcode
    rw [List.map_eq_nil_iff, List.filter_eq_nil_iff]
    intro e he hmark
    exact hcode ((List.eq_of_mem_replicate (List.of_mem_zip he).2).symm.trans hmark)

/-- The marked characters of pieces are those of the pieces of code. -/
theorem marked_textOf (ps : List Piece) :
    marked (textOf ps) (ps.flatMap Piece.marks) = textOf (ps.filter Piece.isCode) := by
  induction ps with
  | nil => rfl
  | cons p ps ih =>
    rw [textOf_cons, List.flatMap_cons, marked_append (by simp [Piece.marks]), ih,
      Piece.marked_marks, List.filter_cons]
    split <;> simp

/-- The code that the scanner gives is what it marks. -/
theorem scan_fst_eq_marked (mode : Mode) (cs : List Char) :
    (scan mode cs).1 = marked cs (keeps mode cs) := by
  rw [scan_fst_eq_textOf, ← marked_textOf, textOf_pieces, keeps]

/-! ## Two slashes -/

/-- The marks from a pair of slashes on, by what the scanner is in the middle of before them and
by whether the first slash closes a block comment. -/
inductive SlashMarks (before tail : List Char) : Mode → List Bool → Prop
  | code : SlashMarks before tail .code (List.replicate (tail.length + 2) false)
  | literal : SlashMarks before tail .literal (true :: true :: keeps .literal tail)
  | comment {more : Nat} :
      SlashMarks before tail (.comment more) (false :: keeps (.comment more) ('/' :: tail))
  | closing {more : Nat} {ahead : List Char} (star : before = ahead ++ ['*']) :
      SlashMarks before tail (.comment more) (false :: keeps (Mode.atDepth more) ('/' :: tail))

theorem SlashMarks.prepend {before tail : List Char} {mode : Mode} {marks : List Bool}
    (h : SlashMarks before tail mode marks) (front : List Char) :
    SlashMarks (front ++ before) tail mode marks := by
  cases h with
  | code => exact .code
  | literal => exact .literal
  | comment => exact .comment
  | closing star => exact .closing (by rw [star, ← List.append_assoc])

theorem keeps_literal_slash (cs : List Char) :
    keeps .literal ('/' :: cs) = true :: keeps .literal cs := by
  rw [keeps_literal (by simp), if_neg (by decide)]

theorem drop_keeps (mode : Mode) (before tail : List Char) :
    SlashMarks before tail (scan mode before).2
      ((keeps mode (before ++ '/' :: '/' :: tail)).drop before.length) := by
  -- The induction follows the scanner through the text before the slashes. Its last step may take
  -- the first slash along, with a star, a backslash or another slash.
  induction mode, before using scan.induct with
  | case1 mode =>
    cases mode with
    | code =>
      rw [List.nil_append, keeps_lineComment, scan]
      exact .code
    | literal =>
      rw [List.nil_append, keeps_literal_slash, keeps_literal_slash, scan]
      exact .literal
    | comment more => exact .comment
  | case2 more rest ih => exact ih.prepend ['/', '*']
  | case3 more rest ih => exact ih.prepend ['*', '/']
  | case4 more c rest hopen hclose ih =>
    rw [scan.eq_4 more c rest hopen hclose]
    by_cases hlast : c = '*' ∧ rest = []
    · obtain ⟨rfl, rfl⟩ := hlast
      exact .closing (List.nil_append _).symm
    · rw [List.cons_append, keeps_comment (no_pair_append hopen (by simp))
        (no_pair_append hclose fun hc hrest => absurd ⟨hc, hrest⟩ hlast)]
      exact ih.prepend [c]
  | case5 c rest code after hscan ih => exact ih.prepend ['\\', c]
  | case6 c rest hescape code after hscan ih =>
    rw [scan.eq_6 c rest hescape]
    by_cases hlast : c = '\\' ∧ rest = []
    · obtain ⟨rfl, rfl⟩ := hlast
      rw [if_neg (by decide), scan, List.cons_append, List.nil_append, keeps_escape,
        keeps_literal_slash]
      exact .literal
    · have hescape' : ∀ d more, c = '\\' → rest ++ '/' :: '/' :: tail = d :: more → False := by
        intro d more hc heq
        cases rest with
        | nil => exact hlast ⟨hc, rfl⟩
        | cons e rest => exact hescape e rest hc rfl
      rw [List.cons_append, keeps_literal hescape']
      exact ih.prepend [c]
  | case7 rest =>
    have hmarks : (keeps .code ('/' :: '/' :: rest ++ '/' :: '/' :: tail)).drop (rest.length + 2) =
        List.replicate (tail.length + 2) false := by
      rw [List.cons_append, List.cons_append, keeps_lineComment, List.drop_replicate,
        List.length_append]
      congr 1
      simp only [List.length_cons]
      omega
    rw [List.length_cons, List.length_cons, hmarks]
    exact .code
  | case8 rest ih => exact ih.prepend ['/', '*']
  | case9 c rest hline hopen code after hscan ih =>
    rw [scan.eq_9 c rest hline hopen]
    by_cases hlast : c = '/' ∧ rest = []
    · obtain ⟨rfl, rfl⟩ := hlast
      rw [if_neg (by decide), scan, List.cons_append, List.nil_append, keeps_lineComment]
      exact .code
    · rw [List.cons_append, keeps_code
        (no_pair_append hline fun hc hrest => absurd ⟨hc, hrest⟩ hlast)
        (no_pair_append hopen (by simp))]
      exact ih.prepend [c]

/-- Within a block comment nothing is code before a sign that closes one. -/
theorem exists_close_of_keeps {more i : Nat} {cs : List Char}
    (h : (keeps (.comment more) cs)[i]? = some true) :
    ∃ ahead behind, cs = ahead ++ '*' :: '/' :: behind ∧ ahead.length + 1 < i := by
  generalize hmode : Mode.comment more = mode at h
  induction mode, cs using scan.induct generalizing more i with
  | case1 mode => simp [keeps_nil] at h
  | case2 more rest ih =>
    rw [keeps] at h
    rcases i with _ | _ | i
    · cases h
    · cases h
    · obtain ⟨ahead, behind, rfl, hi⟩ := ih rfl h
      exact ⟨'/' :: '*' :: ahead, behind, rfl, by simpa using hi⟩
  | case3 more rest ih =>
    rw [keeps] at h
    rcases i with _ | _ | i
    · cases h
    · cases h
    · exact ⟨[], rest, rfl, by simp⟩
  | case4 more c rest hopen hclose ih =>
    rw [keeps_comment hopen hclose] at h
    rcases i with _ | i
    · cases h
    · obtain ⟨ahead, behind, rfl, hi⟩ := ih rfl h
      exact ⟨c :: ahead, behind, rfl, by simpa using hi⟩
  | case5 => cases hmode
  | case6 => cases hmode
  | case7 => cases hmode
  | case8 => cases hmode
  | case9 => cases hmode

/-! ## Lines one after the other -/

/-- The characters of a line, none where there is no line. -/
def lineAt (lines : List String) (place : Nat) : List Char := ((lines[place]?).getD "").toList

/-- What the scanner is in the middle of where a line starts. -/
def modeBefore (lines : List String) (place : Nat) : Mode :=
  Mode.atDepth (depthAfter 0 (lines.take place))

/-- What the scanner is in the middle of when it has gone over the characters of a line before a
column, counted from zero. A line comment counts as plain code: it leaves nothing open. -/
def modeAt (lines : List String) (place col : Nat) : Mode :=
  (scan (modeBefore lines place) ((lineAt lines place).take col)).2

/-- The character at a column of a line, both counted from zero, is kept as code. -/
def CodeAt (lines : List String) (place col : Nat) : Prop :=
  (keeps (modeBefore lines place) (lineAt lines place))[col]? = some true

instance (lines : List String) (place col : Nat) : Decidable (CodeAt lines place col) :=
  inferInstanceAs (Decidable (_ = some true))

/-- A line of which only blanks are left once its comments are gone. -/
def CommentOnly (lines : List String) (place : Nat) : Prop :=
  ∃ stripped, (stripLines 0 lines)[place]? = some stripped ∧ allBlank stripped.1.toList

section

variable {lines : List String} {place : Nat}

theorem getElem?_stripLines (depth : Nat) (lines : List String) (place : Nat) :
    (stripLines depth lines)[place]? =
      (lines[place]?).map (stripComments (depthAfter depth (lines.take place))) := by
  induction lines generalizing depth place with
  | nil => simp [stripLines]
  | cons line rest ih =>
    cases place with
    | zero => rfl
    | succ place =>
      simp only [stripLines, List.getElem?_cons_succ, List.take_succ_cons]
      rw [ih]
      rfl

theorem lineAt_eq {line : String} (hline : lines[place]? = some line) :
    lineAt lines place = line.toList := by
  rw [lineAt, hline, Option.getD_some]

/-- The code of a line is made of the characters that are kept. -/
theorem stripLines_eq_marked {line : String} (hline : lines[place]? = some line) :
    ((stripLines 0 lines)[place]?).map Prod.fst =
      some (String.ofList (marked line.toList (keeps (modeBefore lines place) line.toList))) := by
  rw [getElem?_stripLines, hline, Option.map_some, Option.map_some, ← scan_fst_eq_marked]
  rfl

/-- A line is comment-only when every character that is kept is a blank. -/
theorem commentOnly_iff {line : String} (hline : lines[place]? = some line) :
    CommentOnly lines place ↔ ∀ (col : Nat) (c : Char), line.toList[col]? = some c →
      CodeAt lines place col → isBlank c := by
  have hstripped := stripLines_eq_marked hline
  obtain ⟨stripped, hat, hcode⟩ := Option.map_eq_some_iff.mp hstripped
  have honly : CommentOnly lines place ↔ allBlank stripped.1.toList := by
    simp [CommentOnly, hat]
  rw [honly, hcode, String.toList_ofList, allBlank, List.all_eq_true]
  simp only [CodeAt, lineAt_eq hline, marked, List.forall_mem_map, List.mem_filter]
  constructor
  · intro h col c hc hkept
    refine h (c, true) ⟨List.mem_of_getElem? (i := col) ?_, rfl⟩
    exact List.getElem?_zip_eq_some.mpr ⟨hc, hkept⟩
  · rintro h ⟨c, mark⟩ ⟨hmem, hmark⟩
    obtain ⟨col, hcol⟩ := List.mem_iff_getElem?.mp hmem
    obtain ⟨hc, hkept⟩ := List.getElem?_zip_eq_some.mp hcol
    rw [show mark = true from hmark] at hkept
    exact h col c hc hkept

/-- A line counts for nothing in the measure of a span on it exactly when it is comment-only. -/
theorem commentOnly_iff_measure {line : String} (hline : lines[place]? = some line) (file : String)
    (startCol endCol : Int) :
    CommentOnly lines place ↔ measure lines ⟨file, place + 1, startCol, place + 1, endCol⟩ = 0 := by
  obtain ⟨hlt, hget⟩ := List.getElem?_eq_some_iff.mp hline
  have hknown : lines ≠ [] := List.ne_nil_of_length_pos (by omega)
  have hmeasure := measure_eq_countCode (s := ⟨file, place + 1, startCol, place + 1, endCol⟩) hknown
    (by dsimp only; omega) (by dsimp only; omega)
  have hhere : (lines.take (place + 1)).drop place = [line] := by
    rw [List.drop_take, Nat.add_sub_cancel_left, List.drop_eq_getElem_cons hlt, hget]
    rfl
  have hstart : ((place : Int) + 1 - 1).toNat = place := by omega
  have hend : ((place : Int) + 1).toNat = place + 1 := by omega
  have honly : CommentOnly lines place ↔
      allBlank (stripComments (depthAfter 0 (lines.take place)) line).1.toList = true := by
    simp [CommentOnly, getElem?_stripLines, hline]
  rw [hmeasure]
  simp only [hstart, hend, hhere, countCode, honly]
  by_cases hblank :
      allBlank (stripComments (depthAfter 0 (lines.take place)) line).1.toList = true
  · simp [hblank]
  · simp [hblank]

/-! ## Two slashes on a line -/

theorem codeAt_add (lines : List String) (place col k : Nat) :
    CodeAt lines place (col + k) ↔
      ((keeps (modeBefore lines place) (lineAt lines place)).drop col)[k]? = some true := by
  rw [CodeAt, List.getElem?_drop]

variable {before tail : List Char} (hline : lineAt lines place = before ++ '/' :: '/' :: tail)
include hline

theorem slashMarks_at :
    SlashMarks before tail (modeAt lines place before.length)
      ((keeps (modeBefore lines place) (lineAt lines place)).drop before.length) := by
  rw [modeAt, hline, List.take_left]
  exact drop_keeps _ _ _

/-- In plain code two slashes end the code of the line. -/
theorem not_codeAt_of_code (hmode : modeAt lines place before.length = .code) {i : Nat}
    (hi : before.length ≤ i) : ¬ CodeAt lines place i := by
  have hmarks := slashMarks_at hline
  obtain ⟨k, rfl⟩ := Nat.exists_eq_add_of_le hi
  rw [codeAt_add]
  rw [hmode] at hmarks
  generalize (keeps _ _).drop _ = marks at hmarks ⊢
  cases hmarks
  intro hcode
  have := List.eq_of_mem_replicate (List.mem_of_getElem? hcode)
  cases this

/-- In a literal two slashes are code. -/
theorem codeAt_of_literal (hmode : modeAt lines place before.length = .literal) :
    CodeAt lines place before.length ∧ CodeAt lines place (before.length + 1) := by
  have hmarks := slashMarks_at hline
  rw [← Nat.add_zero before.length, Nat.add_assoc, codeAt_add, codeAt_add]
  rw [hmode] at hmarks
  generalize (keeps _ _).drop _ = marks at hmarks ⊢
  cases hmarks
  exact ⟨rfl, rfl⟩

/-- In a block comment the first of two slashes is no code, and what follows is none before a sign
that closes a comment, with its slash at that place or later. -/
theorem exists_close_of_comment {more : Nat}
    (hmode : modeAt lines place before.length = .comment more) {i : Nat}
    (hi : before.length ≤ i) (hcode : CodeAt lines place i) :
    ∃ ahead behind, lineAt lines place = ahead ++ '*' :: '/' :: behind ∧
      before.length ≤ ahead.length + 1 ∧ ahead.length + 1 < i := by
  have hmarks := slashMarks_at hline
  obtain ⟨k, rfl⟩ := Nat.exists_eq_add_of_le hi
  rw [codeAt_add] at hcode
  rw [hmode] at hmarks
  rw [hline]
  generalize (keeps _ _).drop _ = marks at hmarks hcode
  cases k with
  | zero =>
    cases hmarks with
    | comment => cases hcode
    | closing star => cases hcode
  | succ k =>
    cases hmarks with
    | comment =>
      rw [List.getElem?_cons_succ] at hcode
      obtain ⟨ahead, behind, hclose, hk⟩ := exists_close_of_keeps hcode
      refine ⟨before ++ '/' :: ahead, behind, ?_, ?_, ?_⟩
      · rw [hclose]
        simp
      · simp
        omega
      · simp
        omega
    | @closing _ ahead star =>
      refine ⟨ahead, '/' :: tail, ?_, ?_, ?_⟩
      · rw [star]
        simp
      · simp [star]
      · simp [star]

end

end ComponentLint.Source

-- Removing comments from a line. The scanner cuts a line into pieces: code,
-- the quotes around literals and what is in them, and the parts of comments.
-- The code that is left is cut into the very pieces of code that the line was
-- cut into, so no comment comes about where one was taken out.
import ComponentLint.Source.Comment
import Mathlib.Data.List.Flatten

namespace ComponentLint.Source

/-! ## Pieces of a line -/

/-- A piece of a line, as the scanner takes it. -/
inductive Piece where
  /-- A character of plain code. -/
  | plain (c : Char)
  /-- The quote that opens a literal. -/
  | openQuote
  /-- The quote that closes a literal. -/
  | closeQuote
  /-- A character in a literal. -/
  | quoted (c : Char)
  /-- A character in a literal and the backslash before it. -/
  | escape (c : Char)
  /-- The marker that opens a block comment, also inside of another one. -/
  | openComment
  /-- The marker that closes a block comment. -/
  | closeComment
  /-- A character in a block comment. -/
  | remark (c : Char)
  /-- A line comment with the text after its marker. -/
  | lineComment (text : List Char)
  deriving DecidableEq, Repr

namespace Piece

/-- The characters of a piece. -/
def text : Piece → List Char
  | plain c => [c]
  | openQuote => ['"']
  | closeQuote => ['"']
  | quoted c => [c]
  | escape c => ['\\', c]
  | openComment => ['/', '*']
  | closeComment => ['*', '/']
  | remark c => [c]
  | lineComment text => '/' :: '/' :: text

/-- Whether a piece is code. -/
def isCode : Piece → Bool
  | plain _ => true
  | openQuote => true
  | closeQuote => true
  | quoted _ => true
  | escape _ => true
  | _ => false

end Piece

/-- The pieces that characters are cut into. -/
def pieces : Mode → List Char → List Piece
  | _, [] => []
  | .comment more, '/' :: '*' :: rest => .openComment :: pieces (.comment (more + 1)) rest
  | .comment more, '*' :: '/' :: rest => .closeComment :: pieces (Mode.atDepth more) rest
  | .comment more, c :: rest => .remark c :: pieces (.comment more) rest
  | .literal, '\\' :: c :: rest => .escape c :: pieces .literal rest
  | .literal, c :: rest =>
    if c = '"' then .closeQuote :: pieces .code rest else .quoted c :: pieces .literal rest
  | .code, '/' :: '/' :: rest => [.lineComment rest]
  | .code, '/' :: '*' :: rest => .openComment :: pieces (.comment 0) rest
  | .code, c :: rest =>
    if c = '"' then .openQuote :: pieces .literal rest else .plain c :: pieces .code rest

/-- The pieces of a line that starts with so many block comments open. -/
def piecesOf (depth : Nat) (line : String) : List Piece := pieces (Mode.atDepth depth) line.toList

/-- The characters of several pieces. -/
def textOf (ps : List Piece) : List Char := ps.flatMap Piece.text

@[simp] theorem textOf_nil : textOf [] = [] := rfl

@[simp] theorem textOf_cons (p : Piece) (ps : List Piece) :
    textOf (p :: ps) = p.text ++ textOf ps := rfl

/-- No character is lost and none is moved. -/
theorem textOf_pieces (mode : Mode) (cs : List Char) : textOf (pieces mode cs) = cs := by
  induction mode, cs using pieces.induct with
  | case1 mode => simp [pieces]
  | case2 more rest ih => simp [pieces, Piece.text, ih]
  | case3 more rest ih => simp [pieces, Piece.text, ih]
  | case4 more c rest hopen hclose ih =>
    rw [pieces.eq_4 more c rest hopen hclose]
    simp [Piece.text, ih]
  | case5 c rest ih => simp [pieces, Piece.text, ih]
  | case6 rest hescape ih =>
    rw [pieces.eq_6 _ rest hescape, if_pos rfl]
    simp [Piece.text, ih]
  | case7 c rest hescape hquote ih =>
    rw [pieces.eq_6 c rest hescape, if_neg hquote]
    simp [Piece.text, ih]
  | case8 rest => simp [pieces, Piece.text]
  | case9 rest ih => simp [pieces, Piece.text, ih]
  | case10 rest hline hopen ih =>
    rw [pieces.eq_9 _ rest hline hopen, if_pos rfl]
    simp [Piece.text, ih]
  | case11 c rest hline hopen hquote ih =>
    rw [pieces.eq_9 c rest hline hopen, if_neg hquote]
    simp [Piece.text, ih]

/-! ## What is left -/

/-- What the scanner is in the middle of once the comments around it are gone. -/
def Mode.uncommented : Mode → Mode
  | .literal => .literal
  | _ => .code

@[simp] theorem uncommented_code : Mode.code.uncommented = .code := rfl

@[simp] theorem uncommented_literal : Mode.literal.uncommented = .literal := rfl

@[simp] theorem uncommented_atDepth (depth : Nat) : (Mode.atDepth depth).uncommented = .code := by
  cases depth with
  | zero => rfl
  | succ more => rfl

/-- In plain code, a character that starts no comment is kept. -/
theorem scan_code_cons {c : Char} (h : c ≠ '/') (rest : List Char) :
    ∃ code, (scan .code (c :: rest)).1 = c :: code := by
  rw [scan.eq_9 c rest (fun _ hslash => absurd hslash h) (fun _ hslash => absurd hslash h)]
  exact ⟨_, rfl⟩

/-- A character of plain code makes no marker with the code after it, unless it made one with what
followed it on the line. -/
theorem no_marker {c second : Char} {rest : List Char} (hsecond : second = '/' ∨ second = '*')
    (hline : ∀ tail, c = '/' → rest = '/' :: tail → False)
    (hopen : ∀ tail, c = '/' → rest = '*' :: tail → False) :
    ∀ tail, c = '/' → (scan .code rest).1 = second :: tail → False := by
  rintro tail hc hcode
  cases rest with
  | nil =>
    rw [scan] at hcode
    cases hcode
  | cons d rest =>
    have hslash : d ≠ '/' := fun hd => hline rest hc (by rw [hd])
    have hstar : d ≠ '*' := fun hd => hopen rest hc (by rw [hd])
    obtain ⟨code, hkept⟩ := scan_code_cons hslash rest
    rw [hkept, List.cons.injEq] at hcode
    rcases hsecond with rfl | rfl
    · exact hslash hcode.1
    · exact hstar hcode.1

/-- The code that is left is cut into the pieces of code that the line was cut into. -/
theorem pieces_scan (mode : Mode) (cs : List Char) :
    pieces mode.uncommented (scan mode cs).1 = (pieces mode cs).filter Piece.isCode := by
  -- The induction follows the scanner. A piece of a comment leaves nothing behind; for a piece of
  -- code the only question is whether it would be cut otherwise with the rest of the code after it.
  induction mode, cs using scan.induct with
  | case1 mode => simp [scan, pieces]
  | case2 more rest ih =>
    simp only [scan, pieces]
    exact ih
  | case3 more rest ih =>
    simp only [scan, pieces]
    rw [uncommented_atDepth] at ih
    exact ih
  | case4 more c rest hopen hclose ih =>
    rw [scan.eq_4 more c rest hopen hclose, pieces.eq_4 more c rest hopen hclose]
    exact ih
  | case5 c rest code after hscan ih =>
    simp only [scan, uncommented_literal, pieces]
    exact congrArg (Piece.escape c :: ·) ih
  | case6 c rest hescape code after hscan ih =>
    rw [scan.eq_6 c rest hescape, pieces.eq_6 c rest hescape]
    -- A backslash that ends the line escapes nothing, also in the code.
    have hescape' : ∀ d tail, c = '\\' →
        (scan (if c = '"' then .code else .literal) rest).1 = d :: tail → False := by
      rintro d tail rfl hcode
      cases rest with
      | nil =>
        simp only [scan] at hcode
        cases hcode
      | cons e rest => exact hescape e rest rfl rfl
    rw [uncommented_literal, pieces.eq_6 c _ hescape']
    by_cases hquote : c = '"'
    · simp only [hquote, if_true] at ih ⊢
      exact congrArg (Piece.closeQuote :: ·) ih
    · simp only [hquote, if_false] at ih ⊢
      exact congrArg (Piece.quoted c :: ·) ih
  | case7 rest =>
    simp only [scan, uncommented_code, pieces]
    rfl
  | case8 rest ih =>
    simp only [scan, pieces]
    exact ih
  | case9 c rest hline hopen code after hscan ih =>
    rw [scan.eq_9 c rest hline hopen, pieces.eq_9 c rest hline hopen]
    by_cases hquote : c = '"'
    · subst hquote
      simp only [if_true] at ih ⊢
      rw [uncommented_code, pieces.eq_9 _ _ (fun _ hc => absurd hc (by decide))
        (fun _ hc => absurd hc (by decide)), if_pos rfl]
      exact congrArg (Piece.openQuote :: ·) ih
    · simp only [hquote, if_false] at ih ⊢
      rw [uncommented_code, pieces.eq_9 c _ (no_marker (Or.inl rfl) hline hopen)
        (no_marker (Or.inr rfl) hline hopen), if_neg hquote]
      exact congrArg (Piece.plain c :: ·) ih

/-- The code of a line is the text of its pieces of code. -/
theorem scan_fst_eq_textOf (mode : Mode) (cs : List Char) :
    (scan mode cs).1 = textOf ((pieces mode cs).filter Piece.isCode) := by
  rw [← pieces_scan, textOf_pieces]

/-- Every marker that opens a block comment adds one to those that are open, and every marker that
closes one takes one away. -/
theorem depth_scan (mode : Mode) (cs : List Char) :
    (scan mode cs).2.depth + (pieces mode cs).count .closeComment =
      mode.depth + (pieces mode cs).count .openComment := by
  induction mode, cs using scan.induct with
  | case1 mode => simp [scan, pieces]
  | case2 more rest ih =>
    simp only [scan, pieces, Mode.depth, List.count_cons] at ih ⊢
    simp only [reduceCtorEq, beq_iff_eq, if_true, if_false]
    omega
  | case3 more rest ih =>
    have hdepth : (Mode.atDepth more).depth = more := by cases more <;> rfl
    rw [hdepth] at ih
    simp only [scan, pieces, List.count_cons, beq_iff_eq, reduceCtorEq, if_true, if_false]
    change _ = more + 1 + _
    omega
  | case4 more c rest hopen hclose ih =>
    rw [scan.eq_4 more c rest hopen hclose, pieces.eq_4 more c rest hopen hclose]
    simpa [List.count_cons] using ih
  | case5 c rest code after hscan ih =>
    simp only [scan, pieces]
    simpa [List.count_cons] using ih
  | case6 c rest hescape code after hscan ih =>
    rw [scan.eq_6 c rest hescape, pieces.eq_6 c rest hescape]
    by_cases hquote : c = '"'
    · simp only [hquote, if_true] at ih ⊢
      simpa [List.count_cons, Mode.depth] using ih
    · simp only [hquote, if_false] at ih ⊢
      simpa [List.count_cons] using ih
  | case7 rest => simp [scan, pieces, Mode.depth]
  | case8 rest ih =>
    simp only [scan, pieces, Mode.depth, List.count_cons] at ih ⊢
    simp only [reduceCtorEq, beq_iff_eq, if_true, if_false]
    omega
  | case9 c rest hline hopen code after hscan ih =>
    rw [scan.eq_9 c rest hline hopen, pieces.eq_9 c rest hline hopen]
    by_cases hquote : c = '"'
    · simp only [hquote, if_true] at ih ⊢
      simpa [List.count_cons, Mode.depth] using ih
    · simp only [hquote, if_false] at ih ⊢
      simpa [List.count_cons] using ih

/-! ## Lines -/

section

variable (depth : Nat) (line : String)

theorem toList_stripComments :
    (stripComments depth line).1.toList = textOf ((piecesOf depth line).filter Piece.isCode) := by
  rw [piecesOf, ← scan_fst_eq_textOf]
  simp [stripComments]

theorem piecesOf_stripComments :
    piecesOf 0 (stripComments depth line).1 = (piecesOf depth line).filter Piece.isCode := by
  have hpieces := pieces_scan (Mode.atDepth depth) line.toList
  rw [uncommented_atDepth] at hpieces
  simpa [piecesOf, stripComments, Mode.atDepth] using hpieces

theorem depth_stripComments :
    (stripComments depth line).2 + (piecesOf depth line).count .closeComment =
      depth + (piecesOf depth line).count .openComment := by
  have hdepth : (Mode.atDepth depth).depth = depth := by cases depth <;> rfl
  have hscan := depth_scan (Mode.atDepth depth) line.toList
  rwa [hdepth] at hscan

/-- The code of a line is what it is cut down to when its comments are removed once more. -/
theorem stripComments_stripComments :
    stripComments 0 (stripComments depth line).1 = ((stripComments depth line).1, 0) := by
  have hcode : (stripComments 0 (stripComments depth line).1).1.toList =
      (stripComments depth line).1.toList := by
    rw [toList_stripComments 0, piecesOf_stripComments, List.filter_filter, toList_stripComments]
    simp only [Bool.and_self]
  -- There is no marker among the pieces of code.
  have hnone : ∀ p : Piece, p.isCode = false →
      ((piecesOf depth line).filter Piece.isCode).count p = 0 := by
    intro p hp
    rw [List.count_eq_zero, List.mem_filter]
    rintro ⟨-, hcode⟩
    rw [hp] at hcode
    cases hcode
  have hdepth := depth_stripComments 0 (stripComments depth line).1
  rw [piecesOf_stripComments, hnone _ rfl, hnone _ rfl, Nat.add_zero, Nat.add_zero] at hdepth
  exact Prod.ext (String.toList_inj.mp hcode) hdepth

end

/-- What is left of a line without its comments is a subsequence of the line, and removing comments
from it once more, with none open, changes nothing and leaves none open. The line is cut into pieces
whose texts make it up, and the code into those of them that are code, so no two characters that
come together make a marker, and every quote goes on opening or closing a literal or standing in
one. As many block comments are open after the line as were before it, one more for each marker that
opens one and one less for each that closes one. -/
theorem removing_comments_leaves_the_code (depth : Nat) (line : String) :
    (stripComments depth line).1.toList.Sublist line.toList ∧
    stripComments 0 (stripComments depth line).1 = ((stripComments depth line).1, 0) ∧
    textOf (piecesOf depth line) = line.toList ∧
    textOf ((piecesOf depth line).filter Piece.isCode) = (stripComments depth line).1.toList ∧
    piecesOf 0 (stripComments depth line).1 = (piecesOf depth line).filter Piece.isCode ∧
    (stripComments depth line).2 + (piecesOf depth line).count .closeComment =
      depth + (piecesOf depth line).count .openComment := by
  have htext : textOf (piecesOf depth line) = line.toList := textOf_pieces _ _
  refine ⟨?_, stripComments_stripComments depth line, htext, (toList_stripComments depth line).symm,
    piecesOf_stripComments depth line, depth_stripComments depth line⟩
  rw [toList_stripComments, ← htext]
  exact List.filter_sublist.flatMap Piece.text

-- The slash after the marker `/*` does not close the comment, and the one before the marker `//` is
-- the first half of a line comment, not of a block comment.
example : stripComments 0 "a/*/ b */\"/*\" //* c" = ("a\"/*\" ", 0) := by decide

end ComponentLint.Source

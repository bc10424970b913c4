-- Wrapping of styled text to a width in terminal cells. A line is broken
-- before a word that does not fit any more; a word that fits on no line is
-- cut into pieces, or left to be cropped where cutting is not allowed.
import ComponentLint.Text.Basic
import ComponentLint.Text.Width

namespace ComponentLint.Output

open ComponentLint.Text

/-- A word with the blanks around it, and where it starts. -/
structure Word where
  start : Nat
  chars : List Char
  /-- The cells it takes without the blanks at the end. -/
  solid : Nat
  deriving DecidableEq, Repr

/-- The cells a word takes. -/
def Word.cells (w : Word) : Nat := cellCount w.chars

/-- The words of a line, given its characters from a place on. Characters after the last word
belong to no word. -/
def wordsFrom (start : Nat) (cs : List Char) : List Word :=
  let lead := cs.takeWhile isBlank
  let afterLead := cs.dropWhile isBlank
  let solid := afterLead.takeWhile fun c => !isBlank c
  let afterSolid := afterLead.dropWhile fun c => !isBlank c
  let trail := afterSolid.takeWhile isBlank
  if _h : solid = [] then []
  else
    let chars := lead ++ solid ++ trail
    ⟨start, chars, cellCount (lead ++ solid)⟩
      :: wordsFrom (start + chars.length) (afterSolid.dropWhile isBlank)
termination_by cs.length
decreasing_by
  have hle {p : Char → Bool} (l : List Char) : (l.dropWhile p).length ≤ l.length :=
    (List.dropWhile_sublist p).length_le
  have hsplit := List.takeWhile_append_dropWhile (p := fun c => !isBlank c)
    (l := cs.dropWhile isBlank)
  have hlen := congrArg List.length hsplit
  have hpos : 0 < ((cs.dropWhile isBlank).takeWhile fun c => !isBlank c).length :=
    List.length_pos_iff.mpr _h
  have h1 := hle (p := isBlank) cs
  have h2 := hle (p := isBlank) ((cs.dropWhile isBlank).dropWhile fun c => !isBlank c)
  simp only [List.length_append] at hlen
  omega

/-- The places where further pieces start when characters from a place on are cut at a width, and
the cells that the last piece takes, given what the first one has taken so far. -/
def piecesFrom (width place taken : Nat) : List Char → List Nat × Nat
  | [] => ([], taken)
  | c :: rest =>
    if width < taken + cellsOf c then
      let (places, last) := piecesFrom width (place + 1) (cellsOf c) rest
      (place :: places, last)
    else piecesFrom width (place + 1) (taken + cellsOf c) rest

/-- The places where a line is broken, given the room its words so far have taken. -/
def breaksFrom (width : Nat) (cut : Bool) (taken : Nat) : List Word → List Nat
  | [] => []
  | w :: rest =>
    if taken + w.solid ≤ width then breaksFrom width cut (taken + w.cells) rest
    else if width < w.solid then
      if cut then
        let (places, last) := piecesFrom width w.start 0 w.chars
        (w.start :: places).filter (· ≠ 0) ++ breaksFrom width cut last rest
      else (if w.start = 0 then [] else [w.start]) ++ breaksFrom width cut w.cells rest
    else if taken ≠ 0 ∧ w.start ≠ 0 then w.start :: breaksFrom width cut w.cells rest
    else breaksFrom width cut taken rest

/-- The parts of a list between the given places, which count from `position` on. -/
def splitAtPlaces {α : Type} (position : Nat) : List Nat → List α → List (List α)
  | [], items => [items]
  | place :: rest, items =>
    items.take (place - position) :: splitAtPlaces place rest (items.drop (place - position))

/-- A piece that is too long without the blanks at its end, as far as it has to lose them. -/
def shedBlanks {α : Type} (char : α → Char) (width : Nat) (line : List α) : List α :=
  let trailing := (line.reverse.takeWhile fun a => isBlank (char a)).length
  line.take (line.length - min trailing (line.length - width))

/-- The beginning of a line that fits a width. A character of two cells that would reach beyond it
is replaced by a blank. -/
def crop {α : Type} (char : α → Char) (blank : α → α) (width : Nat) : List α → List α
  | [] => []
  | a :: rest =>
    let cells := cellsOf (char a)
    if cells ≤ width then a :: crop char blank (width - cells) rest
    else if width = 0 then []
    else [blank a]

/-- A line without what reaches beyond a width. -/
def cropLine {α : Type} (char : α → Char) (blank : α → α) (width : Nat) (line : List α) : List α :=
  if cellCount (line.map char) ≤ width then line else crop char blank width line

/-- One line wrapped to a width, its words cut where they have to be. -/
def wrapLine {α : Type} (char : α → Char) (blank : α → α) (width : Nat) (line : List α) :
    List (List α) :=
  let breaks := breaksFrom width true 0 (wordsFrom 0 (line.map char))
  (splitAtPlaces 0 breaks line).map fun piece =>
    cropLine char blank width (shedBlanks char width piece)

end ComponentLint.Output

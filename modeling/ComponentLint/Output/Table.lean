-- Tables for a terminal. Columns are as wide as their longest cell; when the
-- table is too wide, the columns whose cells may be wrapped give way first.
import ComponentLint.Number.Binary64
import ComponentLint.Output.Wrap

namespace ComponentLint.Output

open ComponentLint.Number

/-- A column of a table. -/
structure Column where
  title : String
  /-- Whether cells may be wrapped. -/
  wraps : Bool := false
  deriving DecidableEq, Repr

/-! ## Widths -/

/-- The width of a cell with a blank on both sides, within a limit. -/
def cellWidth (limit : Nat) (cell : String) : Nat :=
  if limit ≤ 2 then limit else min (cell.length + 2) limit

/-- The width of the cells of a column, within a limit. -/
def columnWidth (limit : Nat) (cells : List String) : Nat :=
  (cells.map (cellWidth limit)).foldl max 0

/-- The sum of some numbers. -/
def total (numbers : List Nat) : Nat := numbers.foldl (· + ·) 0

/-- Takes so much away from values in proportion to their weights, from none more than its
limit. -/
def reduce (amount : Nat) : Nat → List (Nat × Nat × Nat) → List Nat
  | _, [] => []
  | weights, (weight, limit, value) :: rest =>
    if weight = 0 || weights = 0 then value :: reduce amount weights rest
    else
      let share := min limit (roundDiv (weight * amount) weights)
      (value - share) :: reduce (amount - share) (weights - weight) rest

/-- Takes so much away from values in proportion to their weights; a limit of zero means no
weight. -/
def reduceBy (amount : Nat) (parts : List (Nat × Nat × Nat)) : List Nat :=
  let parts := parts.map fun (weight, limit, value) =>
    (if limit = 0 then 0 else weight, limit, value)
  reduce amount (total (parts.map Prod.fst)) parts

/-- Narrows the widest wrapping columns to the next narrower ones until the table fits. -/
def collapse (limit : Nat) : Nat → List (Bool × Nat) → List (Bool × Nat)
  | 0, columns => columns
  | fuel + 1, columns =>
    let excess := total (columns.map Prod.snd) - limit
    if excess = 0 then columns
    else
      let wrapping := (columns.filter Prod.fst).map Prod.snd
      let widest := wrapping.foldl max 0
      let second := (wrapping.filter (· ≠ widest)).foldl max 0
      let room := widest - second
      if room = 0 then columns
      else
        let parts := columns.map fun (wraps, width) =>
          (if wraps && width = widest then 1 else 0, min excess room, width)
        collapse limit fuel ((columns.map Prod.fst).zip (reduceBy excess parts))

/-- The widths of the columns of a table within a limit. -/
def columnWidths (limit : Nat) (columns : List (Bool × List String)) : List Nat :=
  let full := columns.map fun (wraps, cells) => (wraps, max 1 (columnWidth limit cells))
  if total (full.map Prod.snd) ≤ limit then full.map Prod.snd
  else
    let narrowed := (collapse limit (full.length + 1) full).map Prod.snd
    let excess := total narrowed - limit
    let fitting :=
      if excess = 0 then narrowed else reduceBy excess (narrowed.map fun w => (1, w, w))
    (fitting.zip columns).map fun (width, _, cells) => columnWidth width cells

/-! ## Cells and rows -/

/-- A text cut to a width, its last character then being an ellipsis. -/
def ellipsize (width : Nat) (cs : List Char) : List Char :=
  if cs.length ≤ width then cs else cs.take (width - 1) ++ ['…']

/-- The lines of a cell of the given width; without room between its blanks it has none. -/
def cellLines (wraps : Bool) (width : Nat) (cell : String) : List (List Char) :=
  let inner := width - 2
  let cs := cell.toList
  let pieces :=
    if wraps then
      (splitAtPlaces 0 (breaksFrom inner false 0 (wordsFrom 0 cs)) cs).map (shedBlanks id inner)
    else [cs]
  if inner = 0 then [] else pieces.map (ellipsize inner)

/-- One line of a cell with a blank before it and blanks up to its width; a missing line is
blank. -/
def padCell (width : Nat) : Option (List Char) → List Char
  | some cs => ' ' :: cs ++ List.replicate (width - 1 - cs.length) ' '
  | none => List.replicate width ' '

/-- The lines of a row. -/
def rowLines (cells : List (Nat × List (List Char))) : List String :=
  let height := (cells.map fun c => c.2.length).foldl max 1
  (List.range height).map fun i =>
    String.ofList (cells.flatMap fun (width, lines) => padCell width lines[i]?)

/-- A table within a limit, with a line feed after every line. Without any room nothing is
printed. -/
def table (limit : Nat) (columns : List Column) (rows : List (List String)) : String :=
  let rows := columns.map Column.title :: rows
  let cells := columns.zipIdx.map fun (column, i) =>
    (column.wraps, rows.map fun row => (row[i]?).getD "")
  let widths := columnWidths limit cells
  let lines := rows.flatMap fun row =>
    rowLines <| (columns.zip (widths.zip row)).map fun (column, width, cell) =>
      (width, cellLines column.wraps width cell)
  if limit = 0 then "" else String.join (lines.map (· ++ "\n"))

end ComponentLint.Output

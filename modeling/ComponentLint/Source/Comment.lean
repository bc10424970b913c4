-- Source lines without their comments, and how many of them hold code. Block
-- comments nest and may stay open from one line to the next; a line comment
-- takes the rest of its line; a string literal ends with its line at the
-- latest, and markers inside one are code.
import ComponentLint.Source.Span
import ComponentLint.Text.Basic

namespace ComponentLint.Source

open ComponentLint.Text

/-! ## Comments -/

/-- What the scanner is in the middle of. -/
inductive Mode where
  /-- Plain code. -/
  | code
  /-- A string literal. -/
  | literal
  /-- Block comments, one open and `more` around it. -/
  | comment (more : Nat)
  deriving DecidableEq, Repr

/-- How many block comments are open. -/
def Mode.depth : Mode → Nat
  | .comment more => more + 1
  | _ => 0

/-- The mode outside literals with so many block comments open. -/
def Mode.atDepth : Nat → Mode
  | 0 => .code
  | more + 1 => .comment more

/-- The code among the characters, and the mode after them. -/
def scan : Mode → List Char → List Char × Mode
  | mode, [] => ([], mode)
  | .comment more, '/' :: '*' :: rest => scan (.comment (more + 1)) rest
  | .comment more, '*' :: '/' :: rest => scan (Mode.atDepth more) rest
  | .comment more, _ :: rest => scan (.comment more) rest
  | .literal, '\\' :: c :: rest =>
    let (code, after) := scan .literal rest
    ('\\' :: c :: code, after)
  | .literal, c :: rest =>
    let (code, after) := scan (if c = '"' then .code else .literal) rest
    (c :: code, after)
  | .code, '/' :: '/' :: _ => ([], .code)
  | .code, '/' :: '*' :: rest => scan (.comment 0) rest
  | .code, c :: rest =>
    let (code, after) := scan (if c = '"' then .literal else .code) rest
    (c :: code, after)

/-- The code on a line and the number of block comments open after it (`_strip_comments`). -/
def stripComments (depth : Nat) (line : String) : String × Nat :=
  let (code, after) := scan (Mode.atDepth depth) line.toList
  (String.ofList code, after.depth)

/-- The number of block comments open after several lines. -/
def depthAfter (depth : Nat) (lines : List String) : Nat :=
  lines.foldl (fun d line => (stripComments d line).2) depth

/-- The code on each of several lines, and the number of block comments open after it. -/
def stripLines : Nat → List String → List (String × Nat)
  | _, [] => []
  | depth, line :: rest =>
    let stripped := stripComments depth line
    stripped :: stripLines stripped.2 rest

/-! ## Lines of code

A line that is blank once its comments are gone does not count; without source text every line of
the range counts. -/

/-- A list index that counts from the end when negative, kept within the list. -/
def boundIndex (length : Nat) (i : Int) : Nat :=
  if i < 0 then (i + length).toNat else min i.toNat length

/-- The items from one index up to another one; negative indices count from the end. -/
def slice {α : Type} (items : List α) (first last : Int) : List α :=
  (items.take (boundIndex items.length last)).drop (boundIndex items.length first)

/-- How many lines hold code, with so many block comments open before them. -/
def countCode : Nat → List String → Nat
  | _, [] => 0
  | depth, line :: rest =>
    let (code, after) := stripComments depth line
    (if allBlank code.toList then 0 else 1) + countCode after rest

/-- The lines of a span that hold code (`measured_lines`). -/
def measure (lines : List String) (s : Span) : Int :=
  if lines.isEmpty then s.lineCount
  else
    let before := slice lines 0 (s.startLine - 1)
    let last := min s.endLine lines.length
    countCode (depthAfter 0 before) (slice lines (s.startLine - 1) last)

end ComponentLint.Source

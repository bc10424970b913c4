-- Places in source text: positions, the ranges between two of them in a
-- file, and ranges whose numbers are remembered as they were written.
import ComponentLint.Value.Text

namespace ComponentLint

open ComponentLint.Number

/-! ## Positions -/

/-- A line and a column, counted from one. -/
structure Position where
  line : Int
  col : Int
  deriving DecidableEq, Repr

namespace Position

/-- Strictly earlier in the source. -/
instance : LT Position := ⟨fun p q => p.line < q.line ∨ p.line = q.line ∧ p.col < q.col⟩

/-- At the same place or earlier in the source. -/
instance : LE Position := ⟨fun p q => p.line < q.line ∨ p.line = q.line ∧ p.col ≤ q.col⟩

instance (p q : Position) : Decidable (p < q) :=
  inferInstanceAs (Decidable (p.line < q.line ∨ p.line = q.line ∧ p.col < q.col))

instance (p q : Position) : Decidable (p ≤ q) :=
  inferInstanceAs (Decidable (p.line < q.line ∨ p.line = q.line ∧ p.col ≤ q.col))

end Position

/-! ## Spans -/

/-- A range of one file, both ends included. -/
structure Span where
  file : String
  startLine : Int
  startCol : Int
  endLine : Int
  endCol : Int
  deriving DecidableEq, Repr, Inhabited

namespace Span

/-- Where a span starts. -/
def start (s : Span) : Position := ⟨s.startLine, s.startCol⟩

/-- Where a span ends. -/
def stop (s : Span) : Position := ⟨s.endLine, s.endCol⟩

/-- The short name of a span: its file and where it starts (`SourceSpan.__str__`). -/
def toText (s : Span) : Except LongInteger String := do
  return s!"{s.file}:{← writeInt s.startLine}:{← writeInt s.startCol}"

/-- Report order: by file, start and end. -/
def order (a b : Span) : Ordering :=
  (compare a.file b.file).then <| (compare a.startLine b.startLine).then <|
    (compare a.startCol b.startCol).then <| (compare a.endLine b.endLine).then <|
      compare a.endCol b.endCol

/-- How many lines a span touches. -/
def lineCount (s : Span) : Int := s.endLine - s.startLine + 1

/-- A span that ends before it starts. -/
def inverted (s : Span) : Bool := s.stop < s.start

/-- Whether a span covers another one of the same file. -/
def contains (a b : Span) : Bool := a.file = b.file && a.start ≤ b.start && b.stop ≤ a.stop

/-- Whether a span covers a position. -/
def covers (s : Span) (p : Position) : Bool := s.start ≤ p && p ≤ s.stop

/-- Whether two spans of one file share a position. -/
def overlaps (a b : Span) : Bool := a.file = b.file && !(a.stop < b.start || b.stop < a.start)

end Span

/-! ## Places as they were written -/

/-- A number as it was written: an integer, or a truth value standing for one or zero. -/
inductive Numeral where
  | int (n : Int)
  | flag (b : Bool)
  deriving DecidableEq, Repr

namespace Numeral

/-- The number meant. -/
def value : Numeral → Int
  | int n => n
  | flag b => if b then 1 else 0

/-- The number as it was written. -/
def toText : Numeral → Except LongInteger String
  | int n => writeInt n
  | flag b => .ok (Value.boolText b)

end Numeral

/-- A span whose numbers are remembered as they were written. -/
structure Place where
  file : String
  startLine : Numeral
  startCol : Numeral
  endLine : Numeral
  endCol : Numeral
  deriving DecidableEq, Repr

namespace Place

/-- The span meant. -/
def span (p : Place) : Span :=
  ⟨p.file, p.startLine.value, p.startCol.value, p.endLine.value, p.endCol.value⟩

/-- A span, written in integers. -/
def ofSpan (s : Span) : Place :=
  ⟨s.file, .int s.startLine, .int s.startCol, .int s.endLine, .int s.endCol⟩

/-- A single position of a file. -/
def point (file : String) (line column : Numeral) : Place := ⟨file, line, column, line, column⟩

/-- The short name of a place: its file and where it starts. -/
def toText (p : Place) : Except LongInteger String := do
  return s!"{p.file}:{← p.startLine.toText}:{← p.startCol.toText}"

end Place

end ComponentLint

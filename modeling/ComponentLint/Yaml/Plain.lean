-- Plain scalars: text without quotes. It ends where a key, a comment or a
-- sign of a flow collection begins, and may go on over several lines, whose
-- ends are folded.
import ComponentLint.Yaml.Cursor

namespace ComponentLint.Yaml

/-- A sign that ends a plain scalar in a flow collection. -/
def isFlowSign (c : Char) : Bool :=
  c = ',' || c = '?' || c = '[' || c = ']' || c.toNat == 0x7b || c.toNat == 0x7d

/-- Whether a colon before this character ends a plain scalar. -/
def endsKey (inFlow : Bool) (next : Option Char) : Bool :=
  endsWord next || (inFlow && next.any fun c => isFlowSign c && c != '?')

/-- The characters of a plain scalar up to a blank or its end. -/
def plainRun (inFlow : Bool) : List Char → List Char
  | [] => []
  | c :: rest =>
    if isSpace c || isBreak c || (c = ':' && endsKey inFlow rest.head?)
        || (inFlow && isFlowSign c) then []
    else c :: plainRun inFlow rest

/-- What lies between two runs of a plain scalar. -/
structure Gap where
  /-- What the gap means in the text; nothing when the scalar ends here. -/
  text : List Char
  cursor : Cursor
  /-- Whether the gap has a line end. -/
  broken : Bool

/-- The line ends after a first one, and whether a document separator follows them. -/
def foldBreaks : Nat → List Char → Cursor → List Char × Cursor × Bool
  | 0, breaks, c => (breaks, c, false)
  | fuel + 1, breaks, c =>
    if c.peek = some ' ' then foldBreaks fuel breaks c.next
    else
      match c.lineBreak? with
      | some (b, c) =>
        if c.atAnySeparator then (breaks ++ [b], c, true) else foldBreaks fuel (breaks ++ [b]) c
      | none => (breaks, c, false)

/-- The gap after a run. One line end means a blank; of several the first is dropped. -/
def plainGap (c : Cursor) : Gap :=
  let (blanks, c) := c.takeWhile (· = ' ')
  match c.lineBreak? with
  | none => ⟨blanks, c, false⟩
  | some (b, c) =>
    if c.atAnySeparator then ⟨[], c, true⟩
    else
      let (breaks, c, separated) := foldBreaks c.size [] c
      if separated then ⟨[], c, true⟩
      else
        let first := if b ≠ '\n' then [b] else if breaks.isEmpty then [' '] else []
        ⟨first ++ breaks, c, true⟩

/-- A plain scalar: its parts (the last one first), the place after it, and whether a line ended
after its last run. -/
structure Plain where
  parts : List (List Char)
  cursor : Cursor
  broken : Bool

/-- Goes on with a plain scalar after a gap. Lines of it stand at the given column or deeper. -/
def plainFrom (inFlow : Bool) (indent : Int) : Nat → List Char → Plain → Plain
  | 0, _, p => p
  | fuel + 1, gap, p =>
    if p.cursor.peek = some '#' then p
    else
      let run := plainRun inFlow p.cursor.rest
      if run.isEmpty then p
      else
        let after := plainGap (p.cursor.skip run.length)
        let p : Plain := ⟨run :: gap :: p.parts, after.cursor, after.broken⟩
        if after.text.isEmpty || after.cursor.peek = some '#'
            || (!inFlow && (after.cursor.column : Int) < indent) then p
        else plainFrom inFlow indent fuel after.text p

/-- The text of a plain scalar. -/
def Plain.text (p : Plain) : List Char := p.parts.reverse.flatten

/-- The plain scalar that starts here. -/
def scanPlain (inFlow : Bool) (indent : Int) (c : Cursor) : Plain :=
  plainFrom inFlow indent c.size [] ⟨[], c, false⟩

end ComponentLint.Yaml

-- Block scalars: indented lines below a `|` or a `>`. The header says how
-- deep they stand and what becomes of the line ends after them.
import ComponentLint.Yaml.Cursor

namespace ComponentLint.Yaml

/-- What becomes of the line ends after a block scalar. -/
inductive Chomping where
  | clip
  | strip
  | keep
  deriving DecidableEq, Repr

/-- The chomping that a sign asks for. -/
def chompingOf? : Option Char → Option Chomping
  | some '+' => some .keep
  | some '-' => some .strip
  | _ => none

/-- The depth that a digit asks for; zero is refused. -/
def increment? (c : Cursor) : Option (Option Nat × Cursor) :=
  match c.peek with
  | some ch =>
    if ch.isDigit then
      if ch = '0' then none else some (some (ch.toNat - '0'.toNat), c.next)
    else some (none, c)
  | none => some (none, c)

/-- The header of a block scalar: its chomping and the depth it asks for. -/
def blockHeader? (c : Cursor) : Option (Chomping × Option Nat × Cursor) := do
  match chompingOf? c.peek with
  | some chomping =>
    let (depth, c) ← increment? c.next
    guard (endsField c.peek)
    return (chomping, depth, c)
  | none =>
    let (depth, c) ← increment? c
    match depth.bind fun _ => chompingOf? c.peek with
    | some chomping =>
      guard (endsField c.next.peek)
      return (chomping, depth, c.next)
    | none =>
      guard (endsField c.peek)
      return (.clip, depth, c)

/-- The place after the rest of a line that holds nothing but a comment. -/
def ignoredLine? (c : Cursor) : Option Cursor := do
  let c := (c.dropWhile (· = ' ')).skipComment
  guard (endsLine c.peek)
  return (c.lineBreak?.map Prod.snd).getD c

/-- The line ends before the first line of text, and the deepest column reached on the way. -/
def leadingBreaks : Nat → List Char → Nat → Cursor → List Char × Nat × Cursor
  | 0, breaks, deepest, c => (breaks, deepest, c)
  | fuel + 1, breaks, deepest, c =>
    if c.peek = some ' ' then leadingBreaks fuel breaks (max deepest c.next.column) c.next
    else
      match c.lineBreak? with
      | some (b, c) => leadingBreaks fuel (breaks ++ [b]) deepest c
      | none => (breaks, deepest, c)

/-- The place after the blanks that lead up to a column. -/
def skipIndent (indent : Nat) (c : Cursor) : Cursor :=
  c.skip (min (indent - c.column) (c.rest.takeWhile (· = ' ')).length)

/-- The line ends before the next line of text. -/
def blockBreaks (indent : Nat) : Nat → List Char → Cursor → List Char × Cursor
  | 0, breaks, c => (breaks, c)
  | fuel + 1, breaks, c =>
    let c := skipIndent indent c
    match c.lineBreak? with
    | some (b, c) => blockBreaks indent fuel (breaks ++ [b]) c
    | none => (breaks, c)

/-- The parts of a block scalar (the last one first), the end of its last line, and the line ends
after it. -/
structure BlockText where
  parts : List (List Char)
  lineEnd : List Char
  breaks : List Char
  cursor : Cursor

/-- Goes on with the lines of a block scalar. -/
def blockLines (folded : Bool) (indent : Nat) : Nat → BlockText → BlockText
  | 0, b => b
  | fuel + 1, b =>
    let c := b.cursor
    if c.column = indent && c.peek.isSome then
      let opensFold := !(c.peek.any isSpace)
      let (line, c) := c.takeWhile fun ch => !isBreak ch
      let (lineEnd, c) := match c.lineBreak? with
        | some (e, c) => ([e], c)
        | none => ([], c)
      let (breaks, c) := blockBreaks indent (c.size) [] c
      let parts := line :: b.breaks :: b.parts
      if c.column = indent && c.peek.isSome then
        let joint :=
          if folded && lineEnd = ['\n'] && opensFold && !(c.peek.any isSpace) then
            if breaks.isEmpty then [' '] else []
          else lineEnd
        blockLines folded indent fuel ⟨joint :: parts, lineEnd, breaks, c⟩
      else ⟨parts, lineEnd, breaks, c⟩
    else b

/-- The block scalar that starts here, inside a block at the given column. -/
def scanBlock (folded : Bool) (parent : Int) (c : Cursor) : Option (List Char × Cursor) := do
  let (chomping, depth, c) ← blockHeader? c.next
  let c ← ignoredLine? c
  let least := (parent + 1).toNat.max 1
  let (indent, breaks, c) := match depth with
    | some d =>
      let indent := least + d - 1
      let (breaks, c) := blockBreaks indent (c.size) [] c
      (indent, breaks, c)
    | none =>
      let (breaks, deepest, c) := leadingBreaks c.size [] 0 c
      (least.max deepest, breaks, c)
  let b := blockLines folded indent c.size ⟨[], [], breaks, c⟩
  let lineEnd := if chomping = .strip then [] else b.lineEnd
  let trailing := if chomping = .keep then b.breaks else []
  return (b.parts.reverse.flatten ++ lineEnd ++ trailing, b.cursor)

end ComponentLint.Yaml

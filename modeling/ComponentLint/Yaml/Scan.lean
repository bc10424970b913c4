-- Cutting a YAML text into tokens. Indentation becomes tokens that open and
-- close blocks. Whether a scalar or collection is a key shows only at the
-- colon after it, so a spot is left in front of everything that could be
-- one, and the spots that turned out to be keys are filled in at the end.
import ComponentLint.Yaml.Plain
import ComponentLint.Yaml.Token

namespace ComponentLint.Yaml

/-! ## The state of a scan -/

/-- A token, or a spot where a key may turn out to start. -/
inductive Lexeme where
  | token (t : Token)
  | spot (number : Nat)

/-- Something that could be a key. One that has to be is the only thing allowed at its place. -/
structure PossibleKey where
  spot : Nat
  required : Bool
  index : Nat
  line : Nat
  column : Nat

/-- The state of a scan. -/
structure Scan where
  cursor : Cursor
  /-- What was found so far, the last one first. -/
  found : List Lexeme := []
  spots : Nat := 0
  /-- The spots that are keys, and whether each opens a block. -/
  keys : List (Nat × Bool) := []
  /-- The column of the innermost open block, and of those around it. -/
  indent : Int := -1
  outer : List Int := []
  /-- How many flow collections are open. -/
  flow : Nat := 0
  /-- Whether a key can start here. -/
  keyAllowed : Bool := true
  /-- What could still be a key, by the number of flow collections around it. -/
  possible : List (Nat × PossibleKey) := []

namespace Scan

/-- Whether a flow collection is open. -/
def inFlow (s : Scan) : Bool := s.flow != 0

/-- Adds a token. -/
def emit (s : Scan) (t : Token) : Scan := { s with found := .token t :: s.found }

/-- Moves to a place. -/
def moveTo (s : Scan) (c : Cursor) : Scan := { s with cursor := c }

/-- Allows or forbids a key. -/
def allowKey (s : Scan) (allowed : Bool) : Scan := { s with keyAllowed := allowed }

/-- Closes the blocks that stand deeper than a column. -/
def closeBlocks (column : Int) : List Int → Scan → Scan
  | [], s => s
  | around :: outer, s =>
    if column < s.indent then
      closeBlocks column outer { s.emit .blockEnd with indent := around, outer }
    else s

/-- Closes the blocks that stand deeper than a column, outside of flow collections. -/
def unwind (s : Scan) (column : Int) : Scan :=
  if s.inFlow then s else closeBlocks column s.outer s

/-- Opens a block at a column, if it is deeper than the innermost one. -/
def openBlock (s : Scan) (column : Nat) (t : Token) : Scan :=
  if s.indent < column then
    { s.emit t with indent := column, outer := s.indent :: s.outer }
  else s

/-- Whether something can be no key any more: a key ends on its line and is not too long. -/
def isStale (s : Scan) (k : PossibleKey) : Bool :=
  k.line != s.cursor.line || 1024 < s.cursor.index - k.index

/-- Forgets what can be no key any more. -/
def dropStale (s : Scan) : Except Fault Scan := do
  require (!s.possible.any fun e => s.isStale e.2 && e.2.required)
  return { s with possible := s.possible.filter fun e => !s.isStale e.2 }

/-- Forgets what could be a key among the innermost collection's items. -/
def dropPossible (s : Scan) : Except Fault Scan := do
  require (!s.possible.any fun e => e.1 == s.flow && e.2.required)
  return { s with possible := s.possible.filter fun e => e.1 != s.flow }

/-- Notes that what comes next could be a key. -/
def notePossible (s : Scan) : Except Fault Scan :=
  if s.keyAllowed then do
    let s ← s.dropPossible
    let c := s.cursor
    let required := !s.inFlow && s.indent == (c.column : Int)
    return { s with
      found := .spot s.spots :: s.found
      spots := s.spots + 1
      possible := (s.flow, ⟨s.spots, required, c.index, c.line, c.column⟩) :: s.possible }
  else .ok s

/-! ## Steps of a scan -/

/-- The place of the next token. After a line end outside of flow collections a key may start. -/
def skipBlank (inFlow : Bool) : Nat → Cursor → Bool → Cursor × Bool
  | 0, c, allowed => (c, allowed)
  | fuel + 1, c, allowed =>
    let c := (c.dropWhile (· = ' ')).skipComment
    match c.lineBreak? with
    | some (_, c) => skipBlank inFlow fuel c (allowed || !inFlow)
    | none => (c, allowed)

/-- Ends all blocks before a directive or a document separator. -/
def endDocument (s : Scan) : Except Fault Scan := do
  let s ← (s.unwind (-1)).dropPossible
  return s.allowKey false

/-- A document separator. -/
def separator (s : Scan) (t : Token) : Except Fault Scan := do
  let s ← s.endDocument
  return (s.emit t).moveTo (s.cursor.skip 3)

/-- The start of a flow collection. -/
def openFlow (s : Scan) (t : Token) : Except Fault Scan := do
  let s ← s.notePossible
  return { (s.emit t).moveTo s.cursor.next with flow := s.flow + 1, keyAllowed := true }

/-- The end of a flow collection, one of which has to be open. -/
def closeFlow (s : Scan) (t : Token) : Except Fault Scan := do
  require s.inFlow
  let s ← s.dropPossible
  return { (s.emit t).moveTo s.cursor.next with flow := s.flow - 1, keyAllowed := false }

/-- A comma between the items of a flow collection. -/
def flowEntry (s : Scan) : Except Fault Scan := do
  let s ← s.dropPossible
  return ((s.emit .flowEntry).moveTo s.cursor.next).allowKey true

/-- The dash of a block sequence's item. -/
def blockEntry (s : Scan) : Except Fault Scan := do
  require (s.inFlow || s.keyAllowed)
  let s := if s.inFlow then s else s.openBlock s.cursor.column .blockSequence
  let s ← s.dropPossible
  return ((s.emit .blockEntry).moveTo s.cursor.next).allowKey true

/-- The question mark before a key. -/
def explicitKey (s : Scan) : Except Fault Scan := do
  require (s.inFlow || s.keyAllowed)
  let s := if s.inFlow then s else s.openBlock s.cursor.column .blockMapping
  let s ← s.dropPossible
  return ((s.emit .key).moveTo s.cursor.next).allowKey (!s.inFlow)

/-- The colon after a key. What could be a key becomes one. -/
def value (s : Scan) : Except Fault Scan :=
  match s.possible.find? fun e => e.1 == s.flow with
  | some (_, k) =>
    let opens := !s.inFlow && s.indent < (k.column : Int)
    let s := { s with
      possible := s.possible.filter fun e => e.1 != s.flow
      keys := (k.spot, opens) :: s.keys
      keyAllowed := false }
    let s := if opens then { s with indent := k.column, outer := s.indent :: s.outer } else s
    .ok ((s.emit .value).moveTo s.cursor.next)
  | none => do
    require (s.inFlow || s.keyAllowed)
    let s := if s.inFlow then s else s.openBlock s.cursor.column .blockMapping
    return ((s.emit .value).moveTo s.cursor.next).allowKey (!s.inFlow)

/-- A token that can start a key. -/
def leaf (s : Scan) (scan : Cursor → Except Fault (Token × Cursor)) : Except Fault Scan := do
  let s ← s.notePossible
  let (t, c) ← scan s.cursor
  return ((s.emit t).moveTo c).allowKey false

/-- A block scalar, which is no key. -/
def blockScalar (s : Scan) (folded : Bool) : Except Fault Scan := do
  let s ← s.dropPossible
  let (text, c) ← orInvalid (scanBlock folded s.indent s.cursor)
  return ((s.emit (.scalar (String.ofList text) false)).moveTo c).allowKey true

/-- A plain scalar. After one that ends with its line a key may start. -/
def plainScalar (s : Scan) : Except Fault Scan := do
  let s ← s.notePossible
  let p := scanPlain s.inFlow (s.indent + 1) s.cursor
  return ((s.emit (.scalar (String.ofList p.text) true)).moveTo p.cursor).allowKey p.broken

/-- Whether a plain scalar can start with a character, given the next one. -/
def startsPlain (inFlow : Bool) (ch : Char) (next : Option Char) : Bool :=
  !(isSpace ch || isBreak ch || "-?:,[]#&*!|>'\"%@".toList.contains ch || ch.toNat == 0x7b
      || ch.toNat == 0x7d || ch.toNat == 0x60)
    || (!endsWord next && (ch = '-' || (!inFlow && (ch = '?' || ch = ':'))))

/-- A quoted scalar. -/
def quotedScalar (s : Scan) (quote : Char) : Except Fault Scan :=
  s.leaf fun c => do
    let (text, c) ← scanQuoted quote c
    return (.scalar (String.ofList text) false, c)

/-- The token that starts with a character. -/
def step (s : Scan) (ch : Char) : Except Fault Scan :=
  let c := s.cursor
  let next := c.peekAt 1
  if ch = '%' && c.column = 0 then do
    let s ← s.endDocument
    let (t, c) ← orInvalid (scanDirective s.cursor)
    return (s.emit t).moveTo c
  else if c.column = 0 && c.atSeparator '-' then s.separator .documentStart
  else if c.column = 0 && c.atSeparator '.' then s.separator .documentEnd
  else if ch = '[' then s.openFlow .flowSequence
  else if ch.toNat == 0x7b then s.openFlow .flowMapping
  else if ch = ']' then s.closeFlow .flowSequenceEnd
  else if ch.toNat == 0x7d then s.closeFlow .flowMappingEnd
  else if ch = ',' then s.flowEntry
  else if ch = '-' && endsWord next then s.blockEntry
  else if ch = '?' && (s.inFlow || endsWord next) then s.explicitKey
  else if ch = ':' && (s.inFlow || endsWord next) then s.value
  else if ch = '*' then s.leaf fun c => do
    let (n, c) ← orInvalid (scanName c)
    return (.alias n, c)
  else if ch = '&' then s.leaf fun c => do
    let (n, c) ← orInvalid (scanName c)
    return (.anchor n, c)
  else if ch = '!' then s.leaf fun c => orInvalid (scanTag c)
  else if ch = '|' && !s.inFlow then s.blockScalar false
  else if ch = '>' && !s.inFlow then s.blockScalar true
  else if ch = '\'' || ch = '"' then s.quotedScalar ch
  else if startsPlain s.inFlow ch next then s.plainScalar
  else .error .invalid

/-- Goes on to the next token; there is none at the end of the text, where nothing can become a key
any more. -/
def advance (s : Scan) : Except Fault (Scan × Bool) := do
  let (c, allowed) := skipBlank s.inFlow s.cursor.size s.cursor s.keyAllowed
  let s ← ((s.moveTo c).allowKey allowed).dropStale
  let s := s.unwind c.column
  match c.peek with
  | none =>
    let s ← s.endDocument
    return ({ s with possible := [] }, false)
  | some ch => return (← s.step ch, true)

/-- Takes the steps of a scan up to the end of the text or the first fault. -/
def run : Nat → Scan → Scan × Option Fault
  | 0, s => (s, some .invalid)
  | fuel + 1, s =>
    match s.advance with
    | .ok (s, true) => run fuel s
    | .ok (s, false) => (s, none)
    | .error fault => (s, some fault)

/-- A lexeme with the spots of keys filled in. -/
def fill (keys : List (Nat × Bool)) : Lexeme → List Token
  | .token t => [t]
  | .spot n =>
    match keys.lookup n with
    | some true => [.blockMapping, .key]
    | some false => [.key]
    | none => []

/-- What can be told for sure of what was found: nothing from the first spot on that could still
be a key. -/
def settled (s : Scan) : List Lexeme :=
  let undecided := (s.possible.filter fun e => !s.isStale e.2).map fun e => e.2.spot
  s.found.reverse.takeWhile fun
    | .token _ => true
    | .spot n => !undecided.contains n

end Scan

/-- The tokens of a text as far as they can be told, and what is wrong behind them, if anything
is. -/
structure TokenStream where
  tokens : List Token
  fault : Option Fault := none

/-- The tokens of a text. -/
def TokenStream.ofText (text : List Char) : TokenStream :=
  if text.all isAllowed then
    let c := Cursor.start text
    let c := if c.peek = some byteOrderMark then c.next else c
    let (s, fault) := Scan.run c.size { cursor := c }
    ⟨s.settled.flatMap (Scan.fill s.keys), fault⟩
  else ⟨[], some .invalid⟩

end ComponentLint.Yaml

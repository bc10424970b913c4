-- Quoted scalars. Between single quotes a quote is written twice; between
-- double quotes a backslash starts an escape. Line ends are folded.
import ComponentLint.Yaml.Cursor
import ComponentLint.Yaml.Fault

namespace ComponentLint.Yaml

/-- The character that a short escape stands for. -/
def shortEscape? : Char → Option Char
  | '0' => some '\x00'
  | 'a' => some '\x07'
  | 'b' => some '\x08'
  | 't' => some '\t'
  | '\t' => some '\t'
  | 'n' => some '\n'
  | 'v' => some '\x0b'
  | 'f' => some '\x0c'
  | 'r' => some '\r'
  | 'e' => some '\x1b'
  | ' ' => some ' '
  | '"' => some '"'
  | '\\' => some '\\'
  | '/' => some '/'
  | 'N' => some '\u0085'
  | '_' => some '\u00a0'
  | 'L' => some '\u2028'
  | 'P' => some '\u2029'
  | _ => none

/-- The number of digits of a numeric escape. -/
def escapeWidth? : Char → Option Nat
  | 'x' => some 2
  | 'u' => some 4
  | 'U' => some 8
  | _ => none

/-- The value of a hexadecimal digit. -/
def hexValue? (c : Char) : Option Nat :=
  if c.isDigit then some (c.toNat - '0'.toNat)
  else if 'a' ≤ c && c ≤ 'f' then some (c.toNat - 'a'.toNat + 10)
  else if 'A' ≤ c && c ≤ 'F' then some (c.toNat - 'A'.toNat + 10)
  else none

/-- The number that hexadecimal digits make. -/
def readHex? (cs : List Char) : Option Nat :=
  cs.foldlM (fun n c => (hexValue? c).map (n * 16 + ·)) 0

/-- The code point of a numeric escape of so many digits. -/
def escapeCode (width : Nat) (c : Cursor) : Except Fault Nat := do
  let digits := c.rest.take width
  require (digits.length = width)
  orInvalid (readHex? digits)

/-- Half of a code point beyond 16 bits, the first one or the second one. -/
def isFirstHalf (n : Nat) : Bool := 0xd800 ≤ n && n < 0xdc00

/-- The second half of a code point beyond 16 bits. -/
def isSecondHalf (n : Nat) : Bool := 0xdc00 ≤ n && n < 0xe000

/-- The character with a code point; half of one stands for no character. -/
def charOf (n : Nat) : Except Fault Char :=
  if 0x80000000 ≤ n then .error .codePointSize
  else if 0x10ffff < n then .error .codePoint
  else .ok (if isFirstHalf n || isSecondHalf n then '\ufffd' else Char.ofNat n)

/-- The second half of a code point, when its escape follows. -/
def secondHalf? (c : Cursor) : Option Nat :=
  match c.rest with
  | '\\' :: 'u' :: digits => (readHex? (digits.take 4)).filter isSecondHalf
  | _ => none

/-- The character of a numeric escape of so many digits, or of two escapes that are the halves of
one code point. -/
def numericEscape (width : Nat) (c : Cursor) : Except Fault (Char × Cursor) := do
  let n ← escapeCode width c
  let c := c.skip width
  match secondHalf? c with
  | some low =>
    if isFirstHalf n then
      return (Char.ofNat (0x10000 + (n - 0xd800) * 0x400 + (low - 0xdc00)), c.skip 6)
    else return (← charOf n, c)
  | none => return (← charOf n, c)

/-- The line ends after a first one; a document separator must not follow. -/
def quotedBreaks : Nat → List Char → Cursor → Except Fault (List Char × Cursor)
  | 0, breaks, c => .ok (breaks, c)
  | fuel + 1, breaks, c =>
    if c.atAnySeparator then .error .invalid
    else
      let c := c.dropWhile isSpace
      match c.lineBreak? with
      | some (b, c) => quotedBreaks fuel (breaks ++ [b]) c
      | none => .ok (breaks, c)

/-- What an escape stands for. A line end after the backslash is left out. -/
def escaped (c : Cursor) : Except Fault (List Char × Cursor) := do
  let ch ← orInvalid c.peek
  match shortEscape? ch with
  | some value => return ([value], c.next)
  | none =>
    match escapeWidth? ch with
    | some width =>
      let (value, c) ← numericEscape width c.next
      return ([value], c)
    | none =>
      let (_, c) ← orInvalid c.lineBreak?
      quotedBreaks c.size [] c

/-- The characters up to a blank or the closing quote; those already read come last one first. -/
def quotedRun (double : Bool) : Nat → List Char → Cursor → Except Fault (List Char × Cursor)
  | 0, done, c => .ok (done.reverse, c)
  | fuel + 1, done, c =>
    match c.peek with
    | none => .ok (done.reverse, c)
    | some ch =>
      if isSpace ch || isBreak ch then .ok (done.reverse, c)
      else if double then
        if ch = '"' then .ok (done.reverse, c)
        else if ch = '\\' then do
          let (part, c) ← escaped c.next
          quotedRun double fuel (part.reverse ++ done) c
        else quotedRun double fuel (ch :: done) c.next
      else if ch = '\'' then
        if c.peekAt 1 = some '\'' then quotedRun double fuel (ch :: done) (c.skip 2)
        else .ok (done.reverse, c)
      else quotedRun double fuel (ch :: done) c.next

/-- The blanks and line ends between two runs. -/
def quotedGap (c : Cursor) : Except Fault (List Char × Cursor) := do
  let (blanks, c) := c.takeWhile isSpace
  require c.peek.isSome
  match c.lineBreak? with
  | none => return (blanks, c)
  | some (b, c) =>
    let (breaks, c) ← quotedBreaks c.size [] c
    let first := if b ≠ '\n' then [b] else if breaks.isEmpty then [' '] else []
    return (first ++ breaks, c)

/-- Goes on with a quoted scalar up to its closing quote; its parts come last one first. -/
def quotedFrom (quote : Char) : Nat → List (List Char) → Cursor → Except Fault (List Char × Cursor)
  | 0, _, _ => .error .invalid
  | fuel + 1, parts, c =>
    if c.peek = some quote then .ok (parts.reverse.flatten, c.next)
    else do
      let (gap, c) ← quotedGap c
      let (run, c) ← quotedRun (quote = '"') c.size [] c
      quotedFrom quote fuel (run :: gap :: parts) c

/-- The quoted scalar that starts here with its opening quote. -/
def scanQuoted (quote : Char) (c : Cursor) : Except Fault (List Char × Cursor) := do
  let (run, c) ← quotedRun (quote = '"') c.size [] c.next
  quotedFrom quote c.size [run] c

end ComponentLint.Yaml

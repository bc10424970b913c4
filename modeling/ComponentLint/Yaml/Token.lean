-- The tokens of a YAML text, and those of them that have a form of their
-- own: names of nodes, tags and directives.
import ComponentLint.Text.Utf8
import ComponentLint.Yaml.Block
import ComponentLint.Yaml.Quoted

namespace ComponentLint.Yaml

/-- The tokens of a YAML text. -/
inductive Token where
  | versionDirective (major : Nat)
  | tagDirective (handle start : String)
  | otherDirective
  | documentStart
  | documentEnd
  | blockSequence
  | blockMapping
  | blockEnd
  | flowSequence
  | flowSequenceEnd
  | flowMapping
  | flowMappingEnd
  | blockEntry
  | flowEntry
  | key
  | value
  | alias (name : String)
  | anchor (name : String)
  /-- A tag, with the handle its start is looked up under. -/
  | tag (handle : Option String) (rest : String)
  | scalar (text : String) (plain : Bool)
  deriving DecidableEq, Repr

/-! ## Names, tags and directives -/

/-- The name of an anchor or alias, after its sign. -/
def scanName (c : Cursor) : Option (String × Cursor) := do
  let (name, c) := c.next.takeWhile isNameChar
  guard (!name.isEmpty)
  guard (endsWord c.peek || c.peek.any fun ch =>
    ch = '?' || ch = ':' || ch = ',' || ch = ']' || ch.toNat == 0x7d || ch = '%' || ch = '@'
      || ch.toNat == 0x60)
  return (String.ofList name, c)

/-- A character that stands for itself in a tag. -/
def isTagChar (c : Char) : Bool := c.isAlphanum || "-;/?:@&=+$,_.!~*'()[]".toList.contains c

/-- Percent escapes that come one after the other, as bytes. -/
def escapedBytes : Nat → List UInt8 → Cursor → Option (List UInt8 × Cursor)
  | 0, bytes, c => some (bytes.reverse, c)
  | fuel + 1, bytes, c =>
    if c.peek = some '%' then do
      let digits := c.next.rest.take 2
      guard (digits.length = 2)
      let byte ← readHex? digits
      escapedBytes fuel (UInt8.ofNat byte :: bytes) (c.skip 3)
    else some (bytes.reverse, c)

/-- The characters of a tag; those already read come last one first. -/
def scanTagChars : Nat → List Char → Cursor → Option (List Char × Cursor)
  | 0, done, c => some (done.reverse, c)
  | fuel + 1, done, c =>
    match c.peek with
    | some '%' => do
      let (bytes, c) ← escapedBytes c.size [] c
      let chars ← (Text.decodeUtf8 bytes).toOption
      scanTagChars fuel (chars.reverse ++ done) c
    | some ch =>
      if isTagChar ch then scanTagChars fuel (ch :: done) c.next else some (done.reverse, c)
    | none => some (done.reverse, c)

/-- The text of a tag, which is not empty. -/
def scanTagText (c : Cursor) : Option (String × Cursor) := do
  let (chars, c) ← scanTagChars c.size [] c
  guard (!chars.isEmpty)
  return (String.ofList chars, c)

/-- The handle of a tag: a name between exclamation marks, or a single mark before a blank. -/
def scanHandle (c : Cursor) : Option (String × Cursor) := do
  guard (c.peek = some '!')
  if c.peekAt 1 = some ' ' then return ("!", c.next)
  else
    let (name, c) := c.next.takeWhile isNameChar
    guard (c.peek = some '!')
    return (String.ofList ('!' :: name ++ ['!']), c.next)

/-- The tag that starts here. -/
def scanTag (c : Cursor) : Option (Token × Cursor) := do
  let (handle, rest, c) ←
    if c.peekAt 1 = some '<' then do
      let (rest, c) ← scanTagText (c.skip 2)
      guard (c.peek = some '>')
      pure ((none : Option String), rest, c.next)
    else if endsWord (c.peekAt 1) then pure (none, "!", c.next)
    else do
      let word := c.next.rest.takeWhile fun ch => !(ch = ' ' || isBreak ch)
      let (handle, c) ← if word.contains '!' then scanHandle c else pure ("!", c.next)
      let (rest, c) ← scanTagText c
      pure (some handle, rest, c)
  guard (endsField c.peek)
  return (.tag handle rest, c)

/-- A number of a version. -/
def scanNumber (c : Cursor) : Option (Nat × Cursor) := do
  let (digits, c) := c.takeWhile Char.isDigit
  guard (!digits.isEmpty)
  return (digits.foldl (fun n d => n * 10 + (d.toNat - '0'.toNat)) 0, c)

/-- The directive that starts here. -/
def scanDirective (c : Cursor) : Option (Token × Cursor) := do
  let (name, c) := c.next.takeWhile isNameChar
  guard (!name.isEmpty && endsField c.peek)
  let (token, c) ←
    match String.ofList name with
    | "YAML" => do
      let (major, c) ← scanNumber (c.dropWhile (· = ' '))
      guard (c.peek = some '.')
      let (_, c) ← scanNumber c.next
      guard (endsField c.peek)
      pure (Token.versionDirective major, c)
    | "TAG" => do
      let (handle, c) ← scanHandle (c.dropWhile (· = ' '))
      guard (c.peek = some ' ')
      let (start, c) ← scanTagText (c.dropWhile (· = ' '))
      guard (endsField c.peek)
      pure (.tagDirective handle start, c)
    | _ => pure (.otherDirective, c.dropWhile fun ch => !isBreak ch)
  let c ← ignoredLine? c
  return (token, c)

end ComponentLint.Yaml

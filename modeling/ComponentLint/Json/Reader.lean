-- Reading JSON texts. A number with a point or an exponent is a double, any
-- other an integer of any size; the two infinities and NaN are read as they
-- are written. Members keep their order.
import ComponentLint.Json.Basic
import ComponentLint.Text.Basic

namespace ComponentLint.Json

open ComponentLint.Number ComponentLint.Text

/-- The characters after leading JSON blanks. -/
def skipBlanks (cs : List Char) : List Char :=
  cs.dropWhile fun c => c = ' ' || c = '\n' || c = '\r' || c = '\t'

/-- The value of a hexadecimal digit. -/
def hexValue? (c : Char) : Option Nat :=
  if '0' ≤ c ∧ c ≤ '9' then some (c.toNat - 48)
  else if 'a' ≤ c ∧ c ≤ 'f' then some (c.toNat - 87)
  else if 'A' ≤ c ∧ c ≤ 'F' then some (c.toNat - 55)
  else none

/-- Reads a given count of hexadecimal digits. -/
def readHex (acc : Nat) : Nat → List Char → Option (Nat × List Char)
  | 0, cs => some (acc, cs)
  | _ + 1, [] => none
  | n + 1, c :: cs => (hexValue? c).bind fun d => readHex (acc * 16 + d) n cs

/-- The character that a one-letter escape stands for. -/
def shortEscape? : Char → Option Char
  | '"' => some '"'
  | '\\' => some '\\'
  | '/' => some '/'
  | 'n' => some '\n'
  | 'r' => some '\r'
  | 't' => some '\t'
  | 'b' => some '\x08'
  | 'f' => some '\x0c'
  | _ => none

/-- The character of an escape by number, two units making one above U+FFFF. -/
def readUnits (cs : List Char) : Option (Char × List Char) :=
  (readHex 0 4 cs).bind fun (unit, rest) =>
    if 0xd800 ≤ unit ∧ unit < 0xdc00 then
      (List.isPrefixOf? ['\\', 'u'] rest).bind fun more =>
        (readHex 0 4 more).bind fun (low, rest) =>
          some (Char.ofNat (0x10000 + (unit - 0xd800) * 0x400 + (low - 0xdc00)), rest)
    else some (Char.ofNat unit, rest)

/-- Reads a text after its opening quote; `fuel` bounds the characters read. -/
def readText (acc : List Char) : Nat → List Char → Option (String × List Char)
  | 0, _ => none
  | _ + 1, [] => none
  | fuel + 1, c :: cs =>
    if c = '"' then some (String.ofList acc.reverse, cs)
    else if c = '\\' then
      match cs with
      | 'u' :: rest =>
        match readUnits rest with
        | some (d, more) => readText (d :: acc) fuel more
        | none => none
      | e :: rest =>
        match shortEscape? e with
        | some d => readText (d :: acc) fuel rest
        | none => none
      | [] => none
    else readText (c :: acc) fuel cs

/-- The number spelled by ASCII digits. -/
def digitsValue (cs : List Char) : Nat := cs.foldl (fun n c => n * 10 + (c.toNat - 48)) 0

/-- A number from its sign, whole digits, fraction digits and exponent, if it has those. -/
def ofParts (negative : Bool) (whole : List Char) (fraction exponent : Option (List Char)) : Json :=
  match fraction, exponent with
  | none, none =>
    .int (if negative then -(digitsValue whole : Int) else digitsValue whole)
  | _, _ =>
    let places := fraction.getD []
    let power : Int := match exponent.getD [] with
      | '-' :: ds => -(digitsValue ds : Int)
      | '+' :: ds => digitsValue ds
      | ds => digitsValue ds
    .float (.ofDecimal negative (digitsValue (whole ++ places)) (power - places.length))

/-- Reads a number, an infinity included. -/
def readNumber (cs : List Char) : Option (Json × List Char) :=
  let (negative, cs) := match cs with
    | '-' :: rest => (true, rest)
    | _ => (false, cs)
  let whole := cs.takeWhile Char.isDigit
  if whole.isEmpty then
    (List.isPrefixOf? "Infinity".toList cs).map fun rest => (.float (.infinite negative), rest)
  else
    let cs := cs.dropWhile Char.isDigit
    let (fraction, cs) := match cs with
      | '.' :: rest => (some (rest.takeWhile Char.isDigit), rest.dropWhile Char.isDigit)
      | _ => (none, cs)
    let inExponent (c : Char) : Bool := c.isDigit || c = '+' || c = '-'
    let (exponent, cs) := match cs with
      | 'e' :: rest => (some (rest.takeWhile inExponent), rest.dropWhile inExponent)
      | 'E' :: rest => (some (rest.takeWhile inExponent), rest.dropWhile inExponent)
      | _ => (none, cs)
    some (ofParts negative whole fraction exponent, cs)

mutual

/-- Reads one JSON text; `fuel` bounds the nesting and the items. -/
def readValue : Nat → List Char → Option (Json × List Char)
  | 0, _ => none
  | fuel + 1, cs =>
    match skipBlanks cs with
    | 'n' :: 'u' :: 'l' :: 'l' :: rest => some (.null, rest)
    | 't' :: 'r' :: 'u' :: 'e' :: rest => some (.bool true, rest)
    | 'f' :: 'a' :: 'l' :: 's' :: 'e' :: rest => some (.bool false, rest)
    | 'N' :: 'a' :: 'N' :: rest => some (.float .nan, rest)
    | '"' :: rest => (readText [] (fuel + 1) rest).map fun (s, rest) => (.str s, rest)
    | '[' :: rest =>
      match skipBlanks rest with
      | ']' :: rest => some (.arr [], rest)
      | rest => (readItems fuel rest).map fun (items, rest) => (.arr items, rest)
    | '{' :: rest =>
      match skipBlanks rest with
      | '}' :: rest => some (.obj [], rest)
      | rest => (readMembers fuel rest).map fun (members, rest) => (.obj members, rest)
    | rest => readNumber rest

/-- Reads the items of an array up to its end. -/
def readItems : Nat → List Char → Option (List Json × List Char)
  | 0, _ => none
  | fuel + 1, cs =>
    (readValue fuel cs).bind fun (item, rest) =>
      match skipBlanks rest with
      | ',' :: rest => (readItems fuel rest).map fun (items, rest) => (item :: items, rest)
      | ']' :: rest => some ([item], rest)
      | _ => none

/-- Reads the members of an object up to its end. -/
def readMembers : Nat → List Char → Option (List (String × Json) × List Char)
  | 0, _ => none
  | fuel + 1, cs =>
    match skipBlanks cs with
    | '"' :: rest =>
      (readText [] (fuel + 1) rest).bind fun (key, rest) =>
        match skipBlanks rest with
        | ':' :: rest =>
          (readValue fuel rest).bind fun (value, rest) =>
            match skipBlanks rest with
            | ',' :: rest =>
              (readMembers fuel rest).map fun (members, rest) => ((key, value) :: members, rest)
            | '}' :: rest => some ([(key, value)], rest)
            | _ => none
        | _ => none
    | _ => none

end

/-- Reads a whole JSON text. -/
def parse? (s : String) : Option Json :=
  let cs := s.toList
  match readValue (2 * cs.length + 2) cs with
  | some (j, rest) => if (skipBlanks rest).isEmpty then some j else none
  | none => none

end ComponentLint.Json

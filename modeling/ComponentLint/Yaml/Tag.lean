-- The tags of YAML nodes. A plain scalar has the tag that the form of its
-- text calls for: null, a truth value, an integer in one of four bases or in
-- sixties, a floating-point number, which needs a point, a date or point in
-- time, or one of the two signs for merging and for default values. All else
-- is text.
import ComponentLint.Text.Basic
import ComponentLint.Yaml.Quoted

namespace ComponentLint.Yaml

/-- What a node is meant to be. -/
inductive Tag where
  | null
  | bool
  | int
  | float
  | str
  | binary
  | timestamp
  | seq
  | map
  | set
  | omap
  | pairs
  | merge
  | value
  /-- A tag without a meaning here. -/
  | other
  deriving DecidableEq, Repr

namespace Tag

/-- What the usual tags start with. -/
def usual (name : String) : String := "tag:yaml.org,2002:" ++ name

/-- The tags with a name of their own. -/
def names : List (String × Tag) :=
  [("null", null), ("bool", bool), ("int", int), ("float", float), ("str", str),
   ("binary", binary), ("timestamp", timestamp), ("seq", seq), ("map", map), ("set", set),
   ("omap", omap), ("pairs", pairs), ("merge", merge), ("value", value)]

/-- The tag that a full name stands for. -/
def ofName (name : String) : Tag :=
  ((names.find? fun e => usual e.1 == name).map Prod.snd).getD other

end Tag

/-! ## Forms of plain scalars -/

/-- The spellings of null. -/
def nullWords : List String := ["", "~", "null", "Null", "NULL"]

/-- The spellings of true. -/
def trueWords : List String := ["yes", "Yes", "YES", "true", "True", "TRUE", "on", "On", "ON"]

/-- The spellings of false. -/
def falseWords : List String := ["no", "No", "NO", "false", "False", "FALSE", "off", "Off", "OFF"]

/-- The characters after a sign, if there is one. -/
def unsigned : List Char → List Char
  | '-' :: rest => rest
  | '+' :: rest => rest
  | cs => cs

/-- A digit or an underscore. -/
def isDigitOrBar (c : Char) : Bool := c.isDigit || c = '_'

/-- Digits and underscores that start with a digit. -/
def isDigits (cs : List Char) : Bool := cs.head?.any Char.isDigit && cs.all isDigitOrBar

/-- A part of a number in sixties after the first: one digit, or two below sixty. -/
def isSixty : List Char → Bool
  | [a] => a.isDigit
  | [a, b] => '0' ≤ a && a ≤ '5' && b.isDigit
  | _ => false

/-- The parts of a text between colons. -/
def colonParts (cs : List Char) : List (List Char) := List.splitOn ':' cs

/-- Whether a text has the form of an integer. -/
def isIntForm (cs : List Char) : Bool :=
  let based (p : Char → Bool) (digits : List Char) : Bool :=
    !digits.isEmpty && digits.all fun c => p c || c = '_'
  match unsigned cs with
  | ['0'] => true
  | '0' :: 'b' :: digits => based (fun c => c = '0' || c = '1') digits
  | '0' :: 'x' :: digits => based (fun c => (hexValue? c).isSome) digits
  | '0' :: digits => based (fun c => '0' ≤ c && c ≤ '7') digits
  | rest =>
    match colonParts rest with
    | first :: more => isDigits first && more.all isSixty
    | [] => false

/-- Whether a text has the form of an exponent: nothing, or a mark, a sign and digits. -/
def isExponentForm : List Char → Bool
  | [] => true
  | mark :: sign :: digits =>
    (mark = 'e' || mark = 'E') && (sign = '+' || sign = '-') && !digits.isEmpty
      && digits.all Char.isDigit
  | _ => false

/-- Whether a text has the form of digits around a point. Without digits before the point there is
no sign, and a digit follows it. -/
def isDecimalForm (cs : List Char) : Bool :=
  let whole := (unsigned cs).takeWhile isDigitOrBar
  match (unsigned cs).dropWhile isDigitOrBar with
  | '.' :: rest =>
    let fraction := rest.takeWhile isDigitOrBar
    isExponentForm (rest.dropWhile isDigitOrBar)
      && (isDigits whole || (cs.head? = some '.' && isDigits fraction))
  | _ => false

/-- Whether a text has the form of a number in sixties whose last part has a point. -/
def isSixtiesForm (cs : List Char) : Bool :=
  match colonParts ((unsigned cs).takeWhile (· ≠ '.')), (unsigned cs).dropWhile (· ≠ '.') with
  | first :: second :: more, '.' :: fraction =>
    isDigits first && (second :: more).all isSixty && fraction.all isDigitOrBar
  | _, _ => false

/-- Whether a text has the form of a floating-point number. -/
def isFloatForm (cs : List Char) : Bool :=
  [".inf", ".Inf", ".INF"].contains (String.ofList (unsigned cs))
    || [".nan", ".NaN", ".NAN"].contains (String.ofList cs)
    || isDecimalForm cs || isSixtiesForm cs

/-! ## Points in time -/

/-- The parts of a date or a point in time, as digits. -/
structure TimeParts where
  year : List Char
  month : List Char
  day : List Char
  clock : Option (List Char × List Char × List Char) := none
  fraction : List Char := []
  /-- The sign, the hours and the minutes that a clock is ahead; a lone letter has none of them. -/
  zone : Option (Option (Char × List Char × List Char)) := none

/-- From so many digits at least up to so many at most, and what follows them. -/
def takeDigits (least most : Nat) (cs : List Char) : Option (List Char × List Char) :=
  let digits := (cs.take most).takeWhile Char.isDigit
  if digits.length < least then none else some (digits, cs.drop digits.length)

/-- What follows a given character. -/
def afterChar? (expected : Char) : List Char → Option (List Char)
  | c :: rest => if c = expected then some rest else none
  | [] => none

/-- Reads how far a clock is ahead, up to the end. -/
def zoneParts? (cs : List Char) : Option (Option (Option (Char × List Char × List Char))) :=
  match cs.dropWhile isSpace with
  | [] => if cs.isEmpty then some none else none
  | ['Z'] => some (some none)
  | sign :: rest =>
    if sign = '+' || sign = '-' then do
      let (hours, rest) ← takeDigits 1 2 rest
      match rest with
      | [] => return some (some (sign, hours, []))
      | rest =>
        let (minutes, rest) ← takeDigits 2 2 (← afterChar? ':' rest)
        guard rest.isEmpty
        return some (some (sign, hours, minutes))
    else none

/-- The characters of the clock, after a letter or blanks. -/
def clockStart? : List Char → Option (List Char)
  | c :: rest =>
    if c = 'T' || c = 't' then some rest
    else if isSpace c then some (rest.dropWhile isSpace)
    else none
  | [] => none

/-- The parts of a point in time. Months and days may have one digit. -/
def timeParts? (cs : List Char) : Option TimeParts := do
  let (year, rest) ← takeDigits 4 4 cs
  let (month, rest) ← takeDigits 1 2 (← afterChar? '-' rest)
  let (day, rest) ← takeDigits 1 2 (← afterChar? '-' rest)
  if rest.isEmpty then return { year, month, day }
  else
    let (hour, rest) ← takeDigits 1 2 (← clockStart? rest)
    let (minute, rest) ← takeDigits 2 2 (← afterChar? ':' rest)
    let (second, rest) ← takeDigits 2 2 (← afterChar? ':' rest)
    let (fraction, rest) := match rest with
      | '.' :: more => (more.takeWhile Char.isDigit, more.dropWhile Char.isDigit)
      | _ => ([], rest)
    let zone ← zoneParts? rest
    return { year, month, day, clock := some (hour, minute, second), fraction, zone }

/-- Whether a text has the form of a date or a point in time. A date alone has two digits each for
month and day. -/
def isTimeForm (cs : List Char) : Bool :=
  match timeParts? cs with
  | some parts => parts.clock.isSome || cs.length == 10
  | none => false

/-! ## The tag of a plain scalar -/

/-- The tag that the form of a text calls for. -/
def Tag.ofForm (cs : List Char) : Tag :=
  let text := String.ofList cs
  if trueWords.contains text || falseWords.contains text then .bool
  else if isFloatForm cs then .float
  else if isIntForm cs then .int
  else if text = "<<" then .merge
  else if nullWords.contains text then .null
  else if isTimeForm cs then .timestamp
  else if text = "=" then .value
  else .str

/-- A text without the one line feed that a form may have at its end. -/
def formOf (cs : List Char) : List Char :=
  if cs.getLast? = some '\n' && cs.length ≠ 1 then cs.dropLast else cs

/-- The tag of a plain scalar. -/
def Tag.ofPlain (text : String) : Tag := Tag.ofForm (formOf text.toList)

end ComponentLint.Yaml

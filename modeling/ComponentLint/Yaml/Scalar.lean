-- The values of scalars under their tags.
import ComponentLint.Text.Lower
import ComponentLint.Value.Basic
import ComponentLint.Yaml.Binary
import ComponentLint.Yaml.Tag

namespace ComponentLint.Yaml

open ComponentLint.Number ComponentLint.Text

/-! ## Numbers -/

/-- The characters without the underscores, which do not count in numbers. -/
def withoutBars (cs : List Char) : List Char := cs.filter (· ≠ '_')

/-- Reads an integer in a base. -/
def readBased (base : Nat) (cs : List Char) : Except Fault Int :=
  (readInt base cs).mapError (.integer base (String.ofList cs))

/-- The magnitude of an integer in its base, which a zero in front tells, or in sixties. -/
def readMagnitude (cs : List Char) : Except Fault Int :=
  match cs with
  | [] => .error .emptyNumber
  | ['0'] => .ok 0
  | '0' :: 'b' :: digits => readBased 2 digits
  | '0' :: 'x' :: digits => readBased 16 digits
  | '0' :: _ => readBased 8 cs
  | _ =>
    if cs.contains ':' then do
      let parts ← (colonParts cs).mapM (readBased 10)
      return parts.foldl (fun n part => n * 60 + part) 0
    else readBased 10 cs

/-- The integer that a text spells. -/
def readInteger (cs : List Char) : Except Fault Int := do
  match withoutBars cs with
  | [] => throw .emptyNumber
  | '-' :: rest => return -(← readMagnitude rest)
  | '+' :: rest => readMagnitude rest
  | rest => readMagnitude rest

/-- Reads a floating-point number. -/
def readDouble (cs : List Char) : Except Fault Binary64 :=
  (Number.readFloat? cs).elim (.error (.float (String.ofList cs))) .ok

/-- The sum of parts in sixties, the last part first, each product and each sum being rounded. -/
def sumSixties (base : Nat) (sum : Binary64) : List Binary64 → Except Fault Binary64
  | [] => .ok sum
  | part :: rest =>
    match Binary64.ofInt base with
    | .infinite _ => .error .sixties
    | factor => sumSixties (base * 60) (sum.add (part.mul factor)) rest

/-- The floating-point number that a text without its sign spells. -/
def readUnsignedFloat (cs : List Char) : Except Fault Binary64 :=
  if cs = ".inf".toList then .ok (.infinite false)
  else if cs.contains ':' then do
    let parts ← (colonParts cs).mapM readDouble
    sumSixties 1 (.zero false) parts.reverse
  else readDouble cs

/-- The spelling of the number that is none, whatever its sign. -/
def nanWord : List Char := ".nan".toList

/-- The floating-point number that a text spells. -/
def readFloat (cs : List Char) : Except Fault Binary64 := do
  let (negative, rest) ← match lower (withoutBars cs) with
    | [] => throw .emptyNumber
    | '-' :: rest => pure (true, rest)
    | '+' :: rest => pure (false, rest)
    | rest => pure (false, rest)
  if rest = nanWord then return .nan
  let x ← readUnsignedFloat rest
  return if negative then x.negate else x

/-! ## Points in time -/

/-- The number that ASCII digits make. -/
def digitsNumber (cs : List Char) : Nat :=
  cs.foldl (fun n c => n * 10 + (c.toNat - '0'.toNat)) 0

/-- The microseconds of a fraction, of which six digits count. -/
def microseconds (fraction : List Char) : Nat :=
  let digits := fraction.take 6
  digitsNumber (digits ++ List.replicate (6 - digits.length) '0')

/-- The seconds that a clock is ahead; a lone letter stands for universal time. -/
def zoneSeconds : Option (Char × List Char × List Char) → Int
  | none => 0
  | some (sign, hours, minutes) =>
    let seconds : Int := digitsNumber hours * 3600 + digitsNumber minutes * 60
    if sign = '-' then -seconds else seconds

/-- The date or point in time with the given parts. -/
def timeOf (parts : TimeParts) : Except Time.Fault Value := do
  let date : Time.Date :=
    ⟨digitsNumber parts.year, digitsNumber parts.month, digitsNumber parts.day⟩
  match parts.clock with
  | none => return .date (← Time.Date.ofParts date.year date.month date.day)
  | some (hour, minute, second) =>
    return .moment (← Time.Moment.ofParts {
      date
      hour := digitsNumber hour
      minute := digitsNumber minute
      second := digitsNumber second
      micro := microseconds parts.fraction
      offset := parts.zone.map zoneSeconds })

/-- The date or point in time that a text spells. -/
def readTime (cs : List Char) : Except Fault Value :=
  match timeParts? (formOf cs) with
  | some parts => (timeOf parts).mapError .time
  | none => .error .timeForm

/-! ## Values -/

/-- The truth value that a word spells. -/
def readBool (cs : List Char) : Except Fault Bool :=
  let word := String.ofList (lower cs)
  if trueWords.contains word then .ok true
  else if falseWords.contains word then .ok false
  else .error (.truthValue word)

/-- The value of a text under a tag for scalars. -/
def scalarValue (tag : Tag) (text : String) : Except Fault Value :=
  let cs := text.toList
  match tag with
  | .null => .ok .null
  | .bool => (readBool cs).map Value.bool
  | .int => (readInteger cs).map Value.int
  | .float => (readFloat cs).map Value.float
  | .str => .ok (.str text)
  | .binary => (orInvalid (readBinary? cs)).map Value.bytes
  | .timestamp => readTime cs
  | _ => .error .invalid

end ComponentLint.Yaml

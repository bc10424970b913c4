-- The text of a double: the fewest decimal digits that read back as the same
-- number, and of those the nearest. The digits are written positionally when
-- the number is at least 1e-4 and below 1e16, else with an exponent of at
-- least two digits; a whole number keeps one decimal place.
import ComponentLint.Number.Binary64

namespace ComponentLint.Number

/-- The digits of a natural. -/
def decimalDigits (n : Nat) : List Char := Nat.toDigits 10 n

namespace Binary64

/-- How many steps of a factor of ten take a quotient below one up to at least one. -/
def leadingZeros (num den : Nat) : Nat → Nat
  | 0 => 0
  | fuel + 1 => if den ≤ num then 0 else leadingZeros (num * 10) den fuel + 1

/-- The power of ten of the first digit of a positive quotient. -/
def decimalPower (num den : Nat) : Int :=
  if den ≤ num then ((decimalDigits (num / den)).length : Int) - 1
  else -(leadingZeros num den 400 : Int)

/-- A quotient divided by a power of ten, as a quotient of naturals. -/
def shifted (num den : Nat) (power : Int) : Nat × Nat :=
  if 0 ≤ power then (num, den * Nat.pow 10 power.toNat)
  else (num * Nat.pow 10 (-power).toNat, den)

/-- Of the two neighbours of a magnitude on the grid of a power of ten, the one that reads back
as the number; of two such the nearer, and the even one at equal distance. -/
def onGrid? (significand : Nat) (exponent power : Int) : Option Nat :=
  let (num, den) := magnitude significand exponent
  let (top, bottom) := shifted num den power
  let below := top / bottom
  let nearest := roundDiv top bottom
  let other := if nearest = below then below + 1 else below
  let same (digits : Nat) : Bool :=
    ofDecimal false digits power == .finite false significand exponent
  if same nearest then some nearest else if same other then some other else none

/-- The first grid, from coarse to fine, that holds a decimal reading back as the number. -/
def shortestFrom (significand : Nat) (exponent power : Int) : Nat → Nat × Int
  | 0 => ((onGrid? significand exponent power).getD 0, power)
  | fuel + 1 =>
    match onGrid? significand exponent power with
    | some digits => (digits, power)
    | none => shortestFrom significand exponent (power - 1) fuel

/-- The digits of the shortest decimal of a positive finite number, without zeros at their end,
and the power of ten of the first of them. -/
def shortest (significand : Nat) (exponent : Int) : List Char × Int :=
  let (num, den) := magnitude significand exponent
  let (digits, power) := shortestFrom significand exponent (decimalPower num den) 20
  let text := decimalDigits digits
  ((text.reverse.dropWhile (· == '0')).reverse, power + (text.length : Int) - 1)

/-- Digits with the decimal point where the power of ten of the first one puts it. -/
def positional (digits : List Char) (power : Int) : List Char :=
  if power < 0 then
    '0' :: '.' :: (List.replicate ((-power).toNat - 1) '0' ++ digits)
  else
    let whole := power.toNat + 1
    let padded := digits ++ List.replicate (whole - digits.length) '0'
    let fraction := padded.drop whole
    padded.take whole ++ '.' :: (if fraction.isEmpty then ['0'] else fraction)

/-- Digits before an exponent mark; the exponent has a sign and at least two digits. -/
def scientific (digits : List Char) (power : Int) : List Char :=
  let lead := match digits with
    | [] => []
    | [d] => [d]
    | d :: more => d :: '.' :: more
  let exponent := decimalDigits power.natAbs
  lead ++ 'e' :: (if power < 0 then '-' else '+') ::
    (if exponent.length < 2 then '0' :: exponent else exponent)

/-- The text of a magnitude. -/
def magnitudeText (significand : Nat) (exponent : Int) : List Char :=
  if significand = 0 then ['0', '.', '0']
  else
    let (digits, power) := shortest significand exponent
    if -4 ≤ power ∧ power < 16 then positional digits power else scientific digits power

/-- The text of a double. -/
def toText : Binary64 → String
  | .finite negative significand exponent =>
    String.ofList ((if negative then ['-'] else []) ++ magnitudeText significand exponent)
  | .infinite negative => if negative then "-inf" else "inf"
  | .nan => "nan"

/-- The text of a double with one decimal place; the exact value is rounded, a tie to even. -/
def toTenths : Binary64 → String
  | .finite negative significand exponent =>
    let (num, den) := magnitude significand exponent
    let tenths := roundDiv (num * 10) den
    String.ofList ((if negative then ['-'] else []) ++ decimalDigits (tenths / 10)
      ++ '.' :: decimalDigits (tenths % 10))
  | x => x.toText

end Binary64

end ComponentLint.Number

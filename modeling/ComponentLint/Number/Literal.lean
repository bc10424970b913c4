-- Numbers as people write them: blanks around, a sign, digits of any script,
-- and in integers single underscores between digits. A decimal integer has a
-- limited number of digits.
import ComponentLint.Number.Binary64
import ComponentLint.Number.Writing
import ComponentLint.Text.Basic
import ComponentLint.Text.Quoted

namespace ComponentLint.Number

open ComponentLint.Text

/-- A blank that may stand around a number: the ASCII ones without the information separators, and
all others. -/
def isOuterBlank (c : Char) : Bool :=
  if c.toNat < 128 then c = ' ' || (9 ≤ c.toNat && c.toNat ≤ 13) else isBlank c

/-- The characters without the blanks around a number. -/
def bareNumber (cs : List Char) : List Char :=
  ((cs.dropWhile isOuterBlank).reverse.dropWhile isOuterBlank).reverse

/-- The sign of a number, and the characters after it. -/
def takeSign : List Char → Bool × List Char
  | '-' :: rest => (true, rest)
  | '+' :: rest => (false, rest)
  | cs => (false, cs)

/-! ## Integers -/

/-- Why a text is no integer. -/
inductive IntFault where
  | malformed
  /-- More decimal digits than are read. -/
  | tooLong (digits : Nat)
  deriving DecidableEq, Repr

/-- The wording of a fault, given the base and the written form of the text, of which the beginning
is shown. -/
def IntFault.message (base : Nat) (written : String) : IntFault → String
  | malformed =>
    s!"invalid literal for int() with base {base}: " ++ String.ofList (written.toList.take 200)
  | tooLong digits =>
    s!"Exceeds the limit ({maxDigits} digits) for integer string conversion: value has {digits} "
      ++ "digits; use sys.set_int_max_str_digits() to increase the limit"

/-- The value of a digit in a base up to 36; letters go on after the digits. -/
def digitIn? (base : Nat) (c : Char) : Option Nat :=
  let value :=
    if 'a' ≤ c && c ≤ 'z' then some (c.toNat - 'a'.toNat + 10)
    else if 'A' ≤ c && c ≤ 'Z' then some (c.toNat - 'A'.toNat + 10)
    else digitValue? c
  value.filter (· < base)

/-- Whether underscores stand only between digits, one at a time. -/
def wellSpaced : List Char → Bool
  | [] => true
  | ['_'] => false
  | '_' :: '_' :: _ => false
  | _ :: rest => wellSpaced rest

/-- Reads an unsigned integer in a base. -/
def readDigits (base : Nat) (cs : List Char) : Except IntFault Nat :=
  let inRun (c : Char) : Bool := (digitIn? base c).isSome || c = '_'
  let run := cs.takeWhile inRun
  let digits := run.filterMap (digitIn? base)
  if digits.isEmpty || run.head? = some '_' || !wellSpaced run then .error .malformed
  else if base = 10 && maxDigits < digits.length then .error (.tooLong digits.length)
  else if (cs.dropWhile inRun).isEmpty then .ok (digits.foldl (fun n d => n * base + d) 0)
  else .error .malformed

/-- The characters after the mark that a binary, octal or hexadecimal number may start with. -/
def afterBaseMark (base : Nat) (cs : List Char) : List Char :=
  match base, cs with
  | 2, '0' :: m :: rest => if m = 'b' || m = 'B' then rest else cs
  | 8, '0' :: m :: rest => if m = 'o' || m = 'O' then rest else cs
  | 16, '0' :: m :: rest => if m = 'x' || m = 'X' then rest else cs
  | _, _ => cs

/-- Reads an integer in a base. -/
def readInt (base : Nat) (cs : List Char) : Except IntFault Int := do
  let (negative, rest) := takeSign (bareNumber cs)
  let n ← readDigits base (afterBaseMark base rest)
  return if negative then -(n : Int) else n

/-! ## Floating-point numbers -/

/-- The number that decimal digits of any script make. -/
def decimalValue (cs : List Char) : Nat :=
  (cs.filterMap digitValue?).foldl (fun n d => n * 10 + d) 0

/-- Whether a character is a decimal digit of some script. -/
def isDecimal (c : Char) : Bool := (digitValue? c).isSome

/-- Reads the exponent of a number: nothing, or a mark, a sign or none, and digits. -/
def readExponent? : List Char → Option Int
  | [] => some 0
  | mark :: rest =>
    let (negative, digits) := takeSign rest
    if (mark = 'e' || mark = 'E') && !digits.isEmpty && digits.all isDecimal then
      let n : Int := decimalValue digits
      some (if negative then -n else n)
    else none

/-- Reads the magnitude of a finite number: digits with a point among them or none, and an
exponent. -/
def readDecimal? (negative : Bool) (cs : List Char) : Option Binary64 :=
  let whole := cs.takeWhile isDecimal
  let rest := cs.dropWhile isDecimal
  let (fraction, rest) := match rest with
    | '.' :: more => (more.takeWhile isDecimal, more.dropWhile isDecimal)
    | _ => ([], rest)
  if whole.isEmpty && fraction.isEmpty then none
  else
    (readExponent? rest).map fun exponent =>
      Binary64.ofDecimal negative (decimalValue (whole ++ fraction)) (exponent - fraction.length)

/-- Reads a floating-point number. -/
def readFloat? (cs : List Char) : Option Binary64 :=
  let (negative, rest) := takeSign (bareNumber cs)
  let word := lowerText (String.ofList rest)
  if word = "inf" || word = "infinity" then some (.infinite negative)
  else if word = "nan" then some .nan
  else readDecimal? negative rest

end ComponentLint.Number

-- Writing integers. An integer is written in decimal digits, of which there
-- may only be so many: every step that puts one into a text may fail, and
-- what the step is a part of fails with it. Counts of things at hand are
-- never that long and are written right away.
namespace ComponentLint

namespace Number

/-- The most digits of a decimal integer. -/
def maxDigits : Nat := 4300

/-- The least number with more digits than that. No proof needs its digits. -/
@[irreducible]
def leastTooLong : Nat := Nat.pow 10 maxDigits

/-- The refusal to write an integer with too many digits. -/
structure LongInteger where
  deriving DecidableEq, Repr

def LongInteger.message : String :=
  s!"Exceeds the limit ({maxDigits} digits) for integer string conversion; "
    ++ "use sys.set_int_max_str_digits() to increase the limit"

/-- An integer in decimal digits. -/
def writeInt (n : Int) : Except LongInteger String :=
  if n.natAbs < leastTooLong then .ok (toString n) else .error ⟨⟩

end Number

open ComponentLint.Number

/-- Why a step gives no result: a refusal of its own, or an integer that is too long to be put into
the text it has to write. -/
inductive Stop (ε : Type) where
  | refused (cause : ε)
  | longInteger
  deriving DecidableEq, Repr

namespace Stop

variable {ε δ α : Type}

/-- The same with the refusal in other terms. -/
def map (f : ε → δ) : Stop ε → Stop δ
  | refused cause => refused (f cause)
  | longInteger => longInteger

/-- Writing as a part of a step that may also refuse. -/
def writing (x : Except LongInteger α) : Except (Stop ε) α := x.mapError fun _ => longInteger

/-- Refusing as a part of a step that may also have to write. -/
def refusing (x : Except ε α) : Except (Stop ε) α := x.mapError refused

end Stop

end ComponentLint

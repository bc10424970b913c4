-- Reading bytes as UTF-8 text, a block of them at a time. The first sequence
-- of bytes that is no character is refused, with where it is in what is read
-- at that time and why.
namespace ComponentLint.Text

/-- Why some bytes are no character. -/
inductive Utf8Reason where
  | invalidStart
  | invalidContinuation
  | unexpectedEnd
  deriving DecidableEq, Repr

/-- The wording of a reason. -/
def Utf8Reason.message : Utf8Reason → String
  | invalidStart => "invalid start byte"
  | invalidContinuation => "invalid continuation byte"
  | unexpectedEnd => "unexpected end of data"

/-- Bytes that are no character: the first one, where it is among the bytes read together, and how
many belong together. -/
structure Utf8Fault where
  byte : Nat
  position : Nat
  length : Nat
  reason : Utf8Reason
  deriving DecidableEq, Repr

/-- Two hexadecimal digits of a byte. -/
def hexByte (n : Nat) : String := String.ofList [Nat.digitChar (n / 16), Nat.digitChar (n % 16)]

/-- The wording of a fault. -/
def Utf8Fault.message (f : Utf8Fault) : String :=
  let what :=
    if f.length = 1 then s!"byte 0x{hexByte f.byte} in position {f.position}"
    else s!"bytes in position {f.position}-{f.position + f.length - 1}"
  s!"'utf-8' codec can't decode {what}: {f.reason.message}"

/-- A byte that goes on with a character. -/
def isContinuation (b : Nat) : Bool := 0x80 ≤ b && b < 0xc0

/-- Whether a byte can follow the first byte of a character of three or four bytes. -/
def isSecond (first b : Nat) : Bool :=
  isContinuation b && (first != 0xe0 || 0xa0 ≤ b) && (first != 0xed || b < 0xa0)
    && (first != 0xf0 || 0x90 ≤ b) && (first != 0xf4 || b < 0x90)

/-- The character made of the low bits of a first byte and of those after it. -/
def joinBytes (low : Nat) (rest : List Nat) : Char :=
  Char.ofNat (rest.foldl (fun n b => n * 64 + b % 64) low)

/-- The number of bytes that are read together. -/
def blockSize : Nat := 8192

/-- Where the bytes that are read together start, once those of a sequence are there. The beginning
of a sequence that a block cuts off is read again with the next block. -/
def readFrom (base first last : Nat) : Nat :=
  if first % blockSize = 0 || first / blockSize ≠ last / blockSize then first else base

/-- Reads bytes from a position on; those that are read together start at `base`. -/
def decodeFrom (base position : Nat) : List Nat → Except Utf8Fault (List Char)
  | [] => .ok []
  | a :: rest =>
    let refuse (length : Nat) (reason : Utf8Reason) : Except Utf8Fault (List Char) :=
      let start := match reason with
        | .invalidStart => readFrom base position position
        | .invalidContinuation => readFrom base position (position + length)
        | .unexpectedEnd => position
      .error ⟨a, position - start, length, reason⟩
    let after (length : Nat) : Nat := readFrom base position (position + length - 1)
    if a < 0x80 then (decodeFrom (after 1) (position + 1) rest).map (Char.ofNat a :: ·)
    else if a < 0xc2 || 0xf4 < a then refuse 1 .invalidStart
    else if a < 0xe0 then
      match rest with
      | [] => refuse 1 .unexpectedEnd
      | b :: rest =>
        if isContinuation b then
          (decodeFrom (after 2) (position + 2) rest).map (joinBytes (a % 32) [b] :: ·)
        else refuse 1 .invalidContinuation
    else
      match rest with
      | [] => refuse 1 .unexpectedEnd
      | b :: rest =>
        if isSecond a b then
          match rest with
          | [] => refuse 2 .unexpectedEnd
          | c :: rest =>
            if isContinuation c then
              if a < 0xf0 then
                (decodeFrom (after 3) (position + 3) rest).map (joinBytes (a % 16) [b, c] :: ·)
              else
                match rest with
                | [] => refuse 3 .unexpectedEnd
                | d :: rest =>
                  if isContinuation d then
                    (decodeFrom (after 4) (position + 4) rest).map
                      (joinBytes (a % 8) [b, c, d] :: ·)
                  else refuse 3 .invalidContinuation
            else refuse 2 .invalidContinuation
        else refuse 1 .invalidContinuation

/-- Reads bytes as text. -/
def decodeUtf8 (bytes : List UInt8) : Except Utf8Fault (List Char) :=
  decodeFrom 0 0 (bytes.map UInt8.toNat)

/-- A text in which every line ends with a line feed. -/
def unifyBreaks : List Char → List Char
  | [] => []
  | '\r' :: '\n' :: rest => '\n' :: unifyBreaks rest
  | '\r' :: rest => '\n' :: unifyBreaks rest
  | c :: rest => c :: unifyBreaks rest

end ComponentLint.Text

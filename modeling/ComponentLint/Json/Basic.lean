-- JSON texts. Objects keep the order of their members. Texts are written in
-- ASCII: whatever lies outside the printable ASCII range is escaped, above
-- U+FFFF as a surrogate pair.
import ComponentLint.Number.Shortest
import ComponentLint.Text.Quoted
import ComponentLint.Value.Text

namespace ComponentLint

open ComponentLint.Number ComponentLint.Text

/-- A JSON text as a tree. -/
inductive Json where
  | null
  | bool (b : Bool)
  | int (n : Int)
  | float (x : Binary64)
  | str (s : String)
  | arr (items : List Json)
  | obj (members : List (String × Json))
  deriving Repr, Inhabited

namespace Json

/-! ## Writing -/

/-- The escape of one UTF-16 unit. -/
def unitEscape (unit : Nat) : List Char := '\\' :: 'u' :: hexDigits 4 unit

/-- One character between the quotes of a JSON text. -/
def escapeChar (c : Char) : List Char :=
  if c = '"' then ['\\', '"']
  else if c = '\\' then ['\\', '\\']
  else if c = '\n' then ['\\', 'n']
  else if c = '\r' then ['\\', 'r']
  else if c = '\t' then ['\\', 't']
  else if c.toNat = 8 then ['\\', 'b']
  else if c.toNat = 12 then ['\\', 'f']
  else if 32 ≤ c.toNat ∧ c.toNat < 127 then [c]
  else if c.toNat < 0x10000 then unitEscape c.toNat
  else
    let rest := c.toNat - 0x10000
    unitEscape (0xd800 + rest / 0x400) ++ unitEscape (0xdc00 + rest % 0x400)

/-- A quoted JSON text. -/
def quote (s : String) : String :=
  String.ofList ('"' :: s.toList.flatMap escapeChar ++ ['"'])

/-- The text of a number; the two infinities and NaN are spelled out. -/
def floatText : Binary64 → String
  | .infinite negative => if negative then "-Infinity" else "Infinity"
  | .nan => "NaN"
  | x => x.toText

/-- Items between two brackets, each on a line of its own below the opening one. -/
def block (opening closing : String) (depth : Nat) (items : List String) : String :=
  if items.isEmpty then opening ++ closing
  else
    let indent (n : Nat) : String := "\n" ++ String.ofList (List.replicate (2 * n) ' ')
    opening ++ ",".intercalate (items.map (indent (depth + 1) ++ ·)) ++ indent depth ++ closing

mutual

/-- A JSON text with each item on a line of its own, two blanks deeper than what holds it. -/
def pretty (depth : Nat) : Json → Except LongInteger String
  | null => .ok "null"
  | bool b => .ok (if b then "true" else "false")
  | int n => writeInt n
  | float x => .ok (floatText x)
  | str s => .ok (quote s)
  | arr items => do return block "[" "]" depth (← prettyItems (depth + 1) items)
  | obj members => do return block "\x7b" "\x7d" depth (← prettyMembers (depth + 1) members)

/-- The items of an array. -/
def prettyItems (depth : Nat) : List Json → Except LongInteger (List String)
  | [] => .ok []
  | j :: rest => do return (← pretty depth j) :: (← prettyItems depth rest)

/-- The members of an object. -/
def prettyMembers (depth : Nat) : List (String × Json) → Except LongInteger (List String)
  | [] => .ok []
  | (k, j) :: rest => do
    let member := quote k ++ ": " ++ (← pretty depth j)
    return member :: (← prettyMembers depth rest)

end

end Json

mutual

/-- A value as JSON: both forms of list as arrays, keys as texts, and what JSON has no form for as
it is written. -/
def Value.toJson : Value → Except LongInteger Json
  | .null => .ok .null
  | .bool b => .ok (.bool b)
  | .int n => .ok (.int n)
  | .float x => .ok (.float x)
  | .str s => .ok (.str s)
  | .list items => do return .arr (← Value.allToJson items)
  | .tuple items => do return .arr (← Value.allToJson items)
  | .map entries => do return .obj (← Value.entriesToJson entries)
  | .date d => .ok (.str d.written)
  | .moment m => .ok (.str m.written)
  | .bytes content => .ok (.str (Value.bytesWritten content))
  | .set members => do return .str (← (Value.set members).written)
  | .knot n body => do return .str (← (Value.knot n body).written)
  | .again _ form => .ok (.str (Value.dots form))

/-- Several values as JSON. -/
def Value.allToJson : List Value → Except LongInteger (List Json)
  | [] => .ok []
  | v :: rest => do return (← v.toJson) :: (← Value.allToJson rest)

/-- The entries of a mapping as JSON. -/
def Value.entriesToJson : List (Value × Value) → Except LongInteger (List (String × Json))
  | [] => .ok []
  | (k, v) :: rest => do
    let member := (← k.toText, ← v.toJson)
    return member :: (← Value.entriesToJson rest)

end

mutual

/-- A JSON text as a document value. -/
def Value.ofJson : Json → Value
  | .null => .null
  | .bool b => .bool b
  | .int n => .int n
  | .float x => .float x
  | .str s => .str s
  | .arr items => .list (Value.allOfJson items)
  | .obj members => .map (Value.membersOfJson members)

/-- Several JSON texts as document values. -/
def Value.allOfJson : List Json → List Value
  | [] => []
  | j :: rest => Value.ofJson j :: Value.allOfJson rest

/-- The members of an object as the entries of a mapping. -/
def Value.membersOfJson : List (String × Json) → List (Value × Value)
  | [] => []
  | (k, j) :: rest => (.str k, Value.ofJson j) :: Value.membersOfJson rest

end

end ComponentLint

-- How values are written in messages: a text between quotes, lists in square
-- and frozen lists in round brackets (one item keeps its comma), mappings
-- and sets in braces, and `None`, `True` and `False` for null and the truth
-- values. A collection inside itself is written as dots in its brackets. A
-- value with an integer of too many digits in it is not written.
import ComponentLint.Entries
import ComponentLint.Number.Shortest
import ComponentLint.Number.Writing
import ComponentLint.Text.Quoted
import ComponentLint.Time.Text
import ComponentLint.Value.Basic

namespace ComponentLint.Value

open ComponentLint.Number ComponentLint.Text

def boolText (b : Bool) : String := if b then "True" else "False"

/-- The written form of a collection inside itself. -/
def dots : Collection → String
  | .list => "[...]"
  | .tuple => "(...)"
  | .map => "\x7b...\x7d"

/-- The form of a collection; what is none counts as a mapping. -/
def formOf : Value → Collection
  | list _ => .list
  | tuple _ => .tuple
  | _ => .map

/-- Binary data between quotes after the letter that marks it; whatever is not printable ASCII is
escaped. -/
def bytesWritten (content : List UInt8) : String :=
  let cs := content.map fun b => Char.ofNat b.toNat
  let quote := quoteOf cs
  let char (c : Char) : List Char := if c.toNat < 0x7f then quoteChar quote c else numericEscape c
  String.ofList ('b' :: quote :: cs.flatMap char ++ [quote])

/-- Written items between round brackets. -/
def tupleText : List String → String
  | [one] => "(" ++ one ++ ",)"
  | texts => "(" ++ ", ".intercalate texts ++ ")"

mutual

/-- The written form of a value inside the collections with some labels. -/
def writtenIn (inside : List Nat) : Value → Except LongInteger String
  | null => .ok "None"
  | bool b => .ok (boolText b)
  | int n => writeInt n
  | float x => .ok x.toText
  | str s => .ok (quoted s)
  | date d => .ok d.written
  | moment m => .ok m.written
  | bytes content => .ok (bytesWritten content)
  | list items => do return "[" ++ ", ".intercalate (← writtenAll inside items) ++ "]"
  | tuple items => do return tupleText (← writtenAll inside items)
  | map entries => do
    return "\x7b" ++ ", ".intercalate (← writtenEntries inside entries) ++ "\x7d"
  | set members =>
    if members.isEmpty then .ok "set()"
    else do return "\x7b" ++ ", ".intercalate (← writtenAll inside members) ++ "\x7d"
  | knot n body =>
    if inside.contains n then .ok (dots body.formOf) else writtenIn (n :: inside) body
  | again _ form => .ok (dots form)

/-- The written forms of several values. -/
def writtenAll (inside : List Nat) : List Value → Except LongInteger (List String)
  | [] => .ok []
  | v :: rest => do return (← writtenIn inside v) :: (← writtenAll inside rest)

/-- The written forms of the entries of a mapping. -/
def writtenEntries (inside : List Nat) :
    List (Value × Value) → Except LongInteger (List String)
  | [] => .ok []
  | (k, v) :: rest => do
    let entry := (← writtenIn inside k) ++ ": " ++ (← writtenIn inside v)
    return entry :: (← writtenEntries inside rest)

end

/-- The written form of a value. -/
def written (v : Value) : Except LongInteger String := writtenIn [] v

/-- A value as plain text: a text is itself, a date or a point in time has its plain form, and all
else is as it is written. -/
def toText : Value → Except LongInteger String
  | str s => .ok s
  | date d => .ok d.toText
  | moment m => .ok m.toText
  | v => written v

/-! ## Frozen values -/

/-- The refusal to freeze a collection that holds itself, as that would never end. -/
structure Endless where
  deriving DecidableEq, Repr

mutual

/-- A value with its open lists frozen and the keys of its mappings made texts (`_freeze`). What is
inside a frozen list already stays as it is. -/
def freeze : Value → Except (Stop Endless) Value
  | list items => do return tuple (← freezeAll items)
  | map entries => do return map ((← freezeEntries entries []).map fun e => (str e.1, e.2))
  | knot n body =>
    if body.formOf = .tuple then .ok (knot n body)
    else do return tie n (knot n body) (← freeze body)
  | again n form => if form = .tuple then .ok (again n form) else .error (.refused ⟨⟩)
  | v => .ok v

/-- Several values, frozen. -/
def freezeAll : List Value → Except (Stop Endless) (List Value)
  | [] => .ok []
  | v :: rest => do return (← freeze v) :: (← freezeAll rest)

/-- Frozen entries on top of those already there; of equal keys the last value stays. -/
def freezeEntries :
    List (Value × Value) → Entries Value → Except (Stop Endless) (Entries Value)
  | [], done => .ok done
  | (k, v) :: rest, done => do
    let key ← Stop.writing (toText k)
    let value ← freeze v
    freezeEntries rest (done.put key value)

end

end ComponentLint.Value

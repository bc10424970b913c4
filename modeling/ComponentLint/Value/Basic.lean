-- The values a document is made of. Lists come in two forms, open and
-- frozen; a mapping keeps its entries in the order they were written, and
-- its keys may be any value that has a hash. A collection that holds itself
-- is a knot: its label stands inside it wherever the whole is meant.
import ComponentLint.Number.Binary64
import ComponentLint.Time.Basic

namespace ComponentLint

open ComponentLint.Number

/-- The forms of collection that can hold themselves. -/
inductive Collection where
  | list
  | tuple
  | map
  deriving DecidableEq, Repr, Inhabited

/-- A decoded document value. -/
inductive Value where
  | null
  | bool (b : Bool)
  | int (n : Int)
  | float (x : Binary64)
  | str (s : String)
  | date (d : Time.Date)
  | moment (m : Time.Moment)
  | bytes (content : List UInt8)
  | list (items : List Value)
  | tuple (items : List Value)
  | map (entries : List (Value × Value))
  | set (members : List Value)
  /-- A collection that holds itself, and its label inside. -/
  | knot (label : Nat) (body : Value)
  /-- The whole collection with a label, inside of it. -/
  | again (label : Nat) (form : Collection)
  deriving Repr, Inhabited

namespace Value

/-! ## Values that hold themselves -/

mutual

/-- A value with a whole put wherever its label stands. -/
def tie (label : Nat) (whole : Value) : Value → Value
  | list items => list (tieAll label whole items)
  | tuple items => tuple (tieAll label whole items)
  | map entries => map (tieEntries label whole entries)
  | knot n body => if n = label then knot n body else knot n (tie label whole body)
  | again n form => if n = label then whole else again n form
  | v => v

/-- Several values with a whole put wherever its label stands. -/
def tieAll (label : Nat) (whole : Value) : List Value → List Value
  | [] => []
  | v :: rest => tie label whole v :: tieAll label whole rest

/-- Entries with a whole put wherever its label stands. -/
def tieEntries (label : Nat) (whole : Value) : List (Value × Value) → List (Value × Value)
  | [] => []
  | (k, v) :: rest => (k, tie label whole v) :: tieEntries label whole rest

end

/-- A value with its outermost layer in the open: a knot is opened once, all else is itself. -/
def unfold : Value → Value
  | knot n body => tie n (knot n body) body
  | v => v

mutual

/-- Whether some part of a value holds itself. -/
def hasKnot : Value → Bool
  | knot _ _ => true
  | again _ _ => true
  | list items => anyHasKnot items
  | tuple items => anyHasKnot items
  | map entries => entryHasKnot entries
  | _ => false

def anyHasKnot : List Value → Bool
  | [] => false
  | v :: rest => hasKnot v || anyHasKnot rest

def entryHasKnot : List (Value × Value) → Bool
  | [] => false
  | (_, v) :: rest => hasKnot v || entryHasKnot rest

end

/-! ## Types, truth and keys -/

/-- The name of a form of collection. -/
def collectionName : Collection → String
  | .list => "list"
  | .tuple => "tuple"
  | .map => "dict"

/-- The name of a value's type, with where it belongs. -/
def typeName : Value → String
  | null => "NoneType"
  | bool _ => "bool"
  | int _ => "int"
  | float _ => "float"
  | str _ => "str"
  | date _ => "datetime.date"
  | moment _ => "datetime.datetime"
  | bytes _ => "bytes"
  | list _ => collectionName .list
  | tuple _ => collectionName .tuple
  | map _ => collectionName .map
  | set _ => "set"
  | knot _ body => typeName body
  | again _ form => collectionName form

/-- The name of a value's type by itself. -/
def shortTypeName : Value → String
  | date _ => "date"
  | moment _ => "datetime"
  | v => typeName v

/-- Whether a value counts as true: null, false, zero and whatever is empty do not. -/
def truthy : Value → Bool
  | null => false
  | bool b => b
  | int n => n != 0
  | float x => !x.isZero
  | str s => !s.isEmpty
  | date _ => true
  | moment _ => true
  | bytes content => !content.isEmpty
  | list items => !items.isEmpty
  | tuple items => !items.isEmpty
  | map entries => !entries.isEmpty
  | set members => !members.isEmpty
  | knot _ body => truthy body
  | again _ _ => true

/-- The integer that a number equals, truth values counting as one and zero. -/
def wholeNumber? : Value → Option Int
  | bool b => some (if b then 1 else 0)
  | int n => some n
  | float x => x.toInt?
  | _ => none

mutual

/-- Whether two values are the same as keys: numbers are compared by value, whatever their form. -/
def sameKey : Value → Value → Bool
  | null, null => true
  | str s, str t => s == t
  | date d, date e => d == e
  | moment m, moment n => m.same n
  | bytes b, bytes c => b == c
  | tuple xs, tuple ys => sameKeys xs ys
  | float x, float y => x == y && x != .nan || (x.isZero && y.isZero)
  | x, y =>
    match wholeNumber? x, wholeNumber? y with
    | some m, some n => m == n
    | _, _ => false

/-- Whether two sequences of values are the same as keys. -/
def sameKeys : List Value → List Value → Bool
  | [], [] => true
  | x :: xs, y :: ys => sameKey x y && sameKeys xs ys
  | _, _ => false

end

mutual

/-- The first part of a value that has no hash: an open list, a mapping or a set. -/
def unhashable? : Value → Option Value
  | tuple items => unhashableIn? items
  | list items => some (list items)
  | map entries => some (map entries)
  | set members => some (set members)
  | knot _ body => unhashable? body
  | again n form => if form = .tuple then none else some (again n form)
  | _ => none

/-- The first part without a hash among several values. -/
def unhashableIn? : List Value → Option Value
  | [] => none
  | x :: xs => (unhashable? x).or (unhashableIn? xs)

end

/-! ## Entries and items -/

/-- The value stored under a text key. -/
def entry? (key : String) : List (Value × Value) → Option Value
  | [] => none
  | (str s, v) :: rest => if s = key then some v else entry? key rest
  | _ :: rest => entry? key rest

/-- The field of a mapping, if the value is one and has it. -/
def field? (key : String) (v : Value) : Option Value :=
  match v.unfold with
  | map entries => entry? key entries
  | _ => none

/-- A field of a mapping, null when it is absent. -/
def field (key : String) (v : Value) : Value := (v.field? key).getD null

/-- Stores a value under a key. The first spelling of a key stays, and its last value. -/
def put (key value : Value) : List (Value × Value) → List (Value × Value)
  | [] => [(key, value)]
  | (k, v) :: rest => if sameKey k key then (k, value) :: rest else (k, v) :: put key value rest

/-- The items of a value that can be gone through: the characters of a text, the bytes of binary
data, the items of a list, the members of a set, the keys of a mapping. -/
def items? (v : Value) : Option (List Value) :=
  match v.unfold with
  | str s => some (s.toList.map fun c => str (String.ofList [c]))
  | bytes content => some (content.map fun b => int b.toNat)
  | list items => some items
  | tuple items => some items
  | map entries => some (entries.map Prod.fst)
  | set members => some members
  | _ => none

/-- The text, when the value is one. -/
def text? : Value → Option String
  | str s => some s
  | _ => none

/-- Whether the value is the given text. -/
def isText (s : String) : Value → Bool
  | str t => t == s
  | _ => false

end Value

end ComponentLint

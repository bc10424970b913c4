-- Settings stored under names, in the order in which the names first came.
namespace ComponentLint

/-- Named settings in the order of their first appearance. -/
abbrev Entries (α : Type) := List (String × α)

namespace Entries

variable {α : Type}

/-- The setting stored under a name. -/
def get? (name : String) : Entries α → Option α
  | [] => none
  | (n, a) :: rest => if n = name then some a else get? name rest

/-- Stores a setting: in place when the name is there, else at the end. -/
def put (name : String) (a : α) : Entries α → Entries α
  | [] => [(name, a)]
  | (n, b) :: rest => if n = name then (n, a) :: rest else (n, b) :: put name a rest

/-- Stores every setting of the second list into the first. -/
def putAll (base stronger : Entries α) : Entries α :=
  stronger.foldl (fun acc e => put e.1 e.2 acc) base

/-- Settings given one after the other; a repeated name keeps its place and its last setting. -/
def ofList (entries : List (String × α)) : Entries α := putAll [] entries

/-- The names in order. -/
def names (entries : Entries α) : List String := entries.map Prod.fst

/-- Whether a name has a setting. -/
def has (name : String) (entries : Entries α) : Bool := (get? name entries).isSome

end Entries

end ComponentLint

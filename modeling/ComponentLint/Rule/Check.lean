-- What a rule does at one node: it looks at the node, what is around it and
-- its parameters, and makes remarks or fails.
import ComponentLint.Model.Basic

namespace ComponentLint

open ComponentLint.Number ComponentLint.Text

/-! ## Failures -/

/-- The classes of failures that a check can raise in words of its own. -/
inductive FailureClass where
  | value
  | key
  | runtime
  | type
  deriving DecidableEq, Repr

def FailureClass.name : FailureClass → String
  | value => "ValueError"
  | key => "KeyError"
  | runtime => "RuntimeError"
  | type => "TypeError"

/-- Why a check failed. -/
inductive Failure where
  /-- A value of this type has no items. -/
  | notIterable (typeName : String)
  /-- A value of this type cannot be a member of a set or a key. -/
  | unhashable (typeName : String)
  /-- The item at this place is no pair. -/
  | notPair (index : Nat)
  /-- The item at this place has another length than a pair. -/
  | pairLength (index length : Nat)
  /-- An integer has too many digits to be written. -/
  | longInteger
  /-- A failure in words of its own. -/
  | raised (kind : FailureClass) (text : String)
  /-- A failure that has no words: what it is about holds an integer with too many digits. -/
  | unspoken (kind : FailureClass)
  deriving DecidableEq, Repr

namespace Failure

/-- The class of a failure. -/
def kind : Failure → FailureClass
  | notIterable _ => .type
  | unhashable _ => .type
  | notPair _ => .type
  | pairLength _ _ => .value
  | longInteger => .value
  | raised k _ => k
  | unspoken k => k

/-- The wording of a failure. -/
def text : Failure → Except LongInteger String
  | notIterable typeName => .ok s!"'{typeName}' object is not iterable"
  | unhashable typeName => .ok s!"unhashable type: '{typeName}'"
  | notPair index =>
    .ok s!"cannot convert dictionary update sequence element #{index} to a sequence"
  | pairLength index length =>
    .ok s!"dictionary update sequence element #{index} has length {length}; 2 is required"
  | longInteger => .ok LongInteger.message
  | raised .key t => .ok (quoted t)
  | raised _ t => .ok t
  | unspoken _ => .error ⟨⟩

/-- The class and the wording of a failure. -/
def toText (f : Failure) : Except LongInteger String := do
  return f.kind.name ++ ": " ++ (← f.text)

/-- The failure that writing a value ends in. -/
def ofLong (_ : LongInteger) : Failure := longInteger

end Failure

/-! ## Checks -/

/-- What a check says about a place. -/
structure Remark where
  span : Span
  message : String
  suggestion : Option String := none
  deriving DecidableEq, Repr

/-- What a check produced at a node: its remarks, and why it stopped if it failed. -/
structure Production where
  remarks : List Remark
  failure : Option Failure := none
  deriving DecidableEq, Repr

/-- What a check sees (`RuleContext`): the node, the nodes around it (innermost last), the unit, and
the parameters of its rule. -/
structure Context where
  node : Node
  ancestors : List Node
  model : Model
  params : Entries Value

namespace Context

/-- The node right around this one. -/
def parent? (ctx : Context) : Option Node := ctx.ancestors.getLast?

/-- The innermost node around this one that is of one of the kinds (`RuleContext.nearest`). -/
def nearest? (ctx : Context) (kinds : List Kind) : Option Node :=
  ctx.ancestors.reverse.find? fun n => kinds.contains n.kind

/-- The innermost component around the node. -/
def component? (ctx : Context) : Option Node := ctx.nearest? [.component]

/-- A parameter that is a list of names. -/
def names (ctx : Context) (key : String) : List String :=
  match ctx.params.get? key with
  | some (.tuple items) => items.filterMap Value.text?
  | _ => []

/-- A parameter that is an integer. -/
def number (ctx : Context) (key : String) : Int :=
  match ctx.params.get? key with
  | some (.int n) => n
  | _ => 0

/-- A remark about the node (`RuleContext.report`). -/
def remark (ctx : Context) (message suggestion : String) : Remark :=
  ⟨ctx.node.span, message, some suggestion⟩

end Context

/-- A check looks at one node. -/
abbrev Check := Context → Production

namespace Check

/-- A check that never fails. -/
def ofRemarks (f : Context → List Remark) : Check := fun ctx => { remarks := f ctx }

/-- A check that says nothing where it fails. -/
def ofAttempt (f : Context → Except Failure (List Remark)) : Check := fun ctx =>
  match f ctx with
  | .ok remarks => { remarks }
  | .error failure => { remarks := [], failure := some failure }

/-- A value as plain text, if it can be written. -/
def plainText (v : Value) : Except Failure String := v.toText.mapError .ofLong

end Check

end ComponentLint

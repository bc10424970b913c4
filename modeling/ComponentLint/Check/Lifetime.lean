-- Work that outlives the place where it is started. An escaping closure
-- captures its owner weakly, and one that runs later checks that the owner is
-- still there before it does its work; the facts about captures come from
-- outside, so reading them may fail. Asynchronous work that starts when a
-- component appears is bound to the time in which the component is visible.
import ComponentLint.Rule.Check
import ComponentLint.Rule.Parameter

namespace ComponentLint.Check

/-! ## Reading the captures -/

/-- The members of a set written as a value. -/
def readSet (v : Value) : Except Failure (List Value) :=
  if v.truthy then
    match v.items? with
    | none => .error (.notIterable v.typeName)
    | some items =>
      match Value.unhashableIn? items with
      | some part => .error (.unhashable part.typeName)
      | none => .ok items
  else .ok []

/-- The pair at a place of a list. -/
def readPair (index : Nat) (v : Value) : Except Failure (Value × Value) :=
  match v.items? with
  | none => .error (.notPair index)
  | some [key, value] =>
    match key.unhashable? with
    | some part => .error (.unhashable part.typeName)
    | none => .ok (key, value)
  | some items => .error (.pairLength index items.length)

/-- Stores pairs, numbered from `first`, on top of those already there. -/
def readPairs (first : Nat) (done : List (Value × Value)) :
    List Value → Except Failure (List (Value × Value))
  | [] => .ok done
  | v :: rest => do
    let (key, value) ← readPair first v
    readPairs (first + 1) (Value.put key value done) rest

/-- The entries of a mapping written as a value: a mapping, or a list of pairs. -/
def readMapping (v : Value) : Except Failure (List (Value × Value)) :=
  if v.truthy then
    match v.unfold with
    | .map entries => .ok entries
    | _ =>
      match v.items? with
      | none => .error (.notIterable v.typeName)
      | some items => readPairs 0 [] items
  else .ok []

/-! ## Captures -/

/-- Whether a capture mode does not keep its owner alive. -/
def isWeak (mode : String) : Bool := mode == "weak" || mode == "unowned"

/-- Whether a closure starts by checking that a name is still alive (`_starts_with_guard`). -/
def startsWithGuard (closure : Node) (name : String) : Bool :=
  match closure.children.find? fun n => n.kind != .annotationMark with
  | some first => (first.attr "guard").isText name
  | none => false

/-- The remarks on the capture of one name. -/
def captureRemarks (ctx : Context) (owner : String) (captures : List Value)
    (modes : List (Value × Value)) (name : String) : Except Failure (List Remark) :=
  let isAsync := (ctx.node.attr "is_async").truthy
  let escaping := isAsync || (ctx.node.attr "escaping").truthy
  let given := Value.entry? name modes
  if !captures.any (Value.isText name) && given.isNone then .ok []
  else do
    let mode ← plainText (given.getD (.str "strong"))
    if !isWeak mode then
      return if escaping then
        [ctx.remark
          (s!"Escaping closure in '{owner}' captures '{name}' strongly "
            ++ "and can keep its owner alive")
          s!"Capture '[weak {name}]' or '[unowned {name}]' instead."]
      else []
    else
      return if mode == "weak" && isAsync && !startsWithGuard ctx.node name then
        [ctx.remark
          (s!"Async closure in '{owner}' captures '{name}' weakly but does "
            ++ "not check that it is still alive before doing work")
          (s!"Start the closure with 'guard let {name} else " ++ "\x7b return \x7d'.")]
      else []

/-- A closure in a component that is referred to captures its owners with care
(`check_capture_discipline`). -/
def captureDiscipline : Check := .ofAttempt fun ctx =>
  match ctx.component?.filter fun c => (c.attr "reference_type").truthy with
  | none => .ok []
  | some component => do
    let captures ← readSet (ctx.node.attr "captures")
    let modes ← readMapping (ctx.node.attr "capture_list")
    let remarks ← (ctx.names "ownerNames").mapM
      (captureRemarks ctx component.nameText captures modes)
    return remarks.flatten

/-! ## Work on appearance -/

/-- Whether a node starts asynchronous work. -/
def startsWork (launchers : List String) (n : Node) : Bool :=
  match n.kind with
  | .closure => (n.attr "is_async").truthy
  | .modifier => n.isNamed launchers
  | .identifier => n.isNamed launchers
  | _ => false

/-- A reaction to appearing starts no asynchronous work of its own (`check_lifecycle_task`). -/
def lifecycleTask : Check := .ofRemarks fun ctx =>
  let node := ctx.node
  if node.isNamed (ctx.names "appearanceEvents")
      && node.subtrees.tail.any (startsWork (ctx.names "asyncLaunchers")) then
    [ctx.remark
      (s!"Asynchronous work started in '.{node.nameText}' is not bound to the component's "
        ++ "visible lifetime")
      ("Use '.task(id:)' so the work is cancelled when the value changes "
        ++ "or the component disappears.")]
  else []

end ComponentLint.Check

-- The state of a component is touched only from the domain the component is
-- isolated to. A function or a closure runs in its own domain or in that of
-- the nearest one around it that has one; a hop switches to a domain for
-- what lies below it.
import ComponentLint.Rule.Check
import ComponentLint.Text.Basic

namespace ComponentLint.Check

open ComponentLint.Text

/-! ## Domains -/

/-- The domain of what runs anywhere. -/
def nonisolated : String := "nonisolated"

/-- The domain a node declares: by being nonisolated, by an annotation, or as a fact, which has to
be written (`_own_domain`). -/
def ownDomain? (n : Node) (isolating : List String) : Except Failure (Option String) :=
  if n.value.hasAnnotation [nonisolated] then .ok (some nonisolated)
  else
    match n.value.firstAnnotation? isolating with
    | some used => .ok (some used)
    | none =>
      let explicit := n.attr "isolation"
      if explicit.truthy then (plainText explicit).map some else .ok none

/-- Whether nodes of a kind can declare the domain of what they hold. -/
def declaresDomain : Kind → Bool
  | .function => true
  | .closure => true
  | .component => true
  | _ => false

/-- The domain of the innermost declaring node among some, innermost first. -/
def domainAmong? (isolating : List String) : List Node → Except Failure (Option String)
  | [] => .ok none
  | n :: rest =>
    if declaresDomain n.kind then do
      match ← ownDomain? n isolating with
      | some domain => return some domain
      | none => domainAmong? isolating rest
    else domainAmong? isolating rest

/-- The domain a node runs in (`_effective_domain`). -/
def effectiveDomain? (ctx : Context) (isolating : List String) :
    Except Failure (Option String) :=
  domainAmong? isolating (ctx.node :: ctx.ancestors.reverse)

/-! ## State and its uses -/

/-- A name without what marks an access: a leading `self.`, and `$` or `_` signs
(`_strip_sigil`). -/
def bareName (s : String) : String :=
  let cs := (List.isPrefixOf? "self.".toList s.toList).getD s.toList
  String.ofList (cs.dropWhile fun c => c = '$' || c = '_')

/-- Whether a node is a property that holds state. -/
def isState (marks : List String) (n : Node) : Bool :=
  n.kind == .property
    && ((n.value.firstAnnotation? marks).isSome || (n.attr "stateful").truthy)

/-- The names of a component's state (`_state_properties`). -/
def stateNames (component : Node) (marks : List String) : List String :=
  (component.children.filter (isState marks)).filterMap fun n =>
    (n.name.filter fun name => !name.isEmpty).map bareName

/-- Whether a walk for the uses in a node's own context stops here: at a node that runs on its own,
or at a hop into the domain. -/
def leavesContext (domain : String) (e : Entry Kind) : Bool :=
  e.kind == .function || e.kind == .closure || (e.attr "hop").isText domain

mutual

/-- The identifiers at a node or below it, outside of what runs on its own or after a hop. -/
def identifiers (domain : String) : Node → List Node
  | .node e ts =>
    if leavesContext domain e then []
    else if e.kind == .identifier then .node e ts :: identifiersAmong domain ts
    else identifiersAmong domain ts

/-- The identifiers at several nodes or below them (`_unhopped_identifiers`). -/
def identifiersAmong (domain : String) : List Node → List Node
  | [] => []
  | t :: ts => identifiers domain t ++ identifiersAmong domain ts

end

/-- The first identifier for each of the state names, without the names already seen. -/
def firstUses (state : List String) (seen : List String) : List Node → List (String × Node)
  | [] => []
  | n :: rest =>
    let name := bareName (n.name.getD "")
    if state.contains name && !seen.contains name then
      (name, n) :: firstUses state (name :: seen) rest
    else firstUses state seen rest

/-! ## The check -/

/-- What a node is called in the sentence. -/
def label (n : Node) : String :=
  match n.name with
  | some name =>
    if name.isEmpty then s!"anonymous {n.kind.name}" else s!"{n.kind.name} '{name}'"
  | none => s!"anonymous {n.kind.name}"

/-- The remark on one use of state. -/
def isolationRemark (ctx : Context) (component : Node) (home : String) (domain : Option String)
    (use : String × Node) : Remark where
  span := use.2.span
  message :=
    s!"'{use.1}' belongs to {home}-isolated '{component.nameText}' but is "
      ++ s!"accessed from {label ctx.node} running on "
      ++ (domain.filter fun name => !name.isEmpty).getD "an unspecified executor"
  suggestion := some <|
    s!"Hop to {home} before touching '{use.1}' (e.g. 'await {home}.run "
      ++ "\x7b ... \x7d') or mark the " ++ s!"{ctx.node.kind.name} @{home}."

/-- A function or closure in another domain than its component's leaves the state alone
(`check_isolation`). -/
def isolation : Check := .ofAttempt fun ctx =>
  match ctx.component? with
  | none => .ok []
  | some component => do
    let isolating := ctx.names "isolationAnnotations"
    match ← ownDomain? component isolating with
    | none => return []
    | some home =>
      if home = nonisolated then return []
      else
        let domain ← effectiveDomain? ctx isolating
        if domain = some home ∨ domain = some nonisolated then return []
        else
          let state := stateNames component (ctx.names "stateAnnotations")
          return (firstUses state [] (identifiersAmong home ctx.node.children)).map
            (isolationRemark ctx component home domain)

end ComponentLint.Check

-- A repeated list identifies its items by something stable, not by their
-- position. Both the identity and the data may be any value, so writing them
-- down may fail.
import ComponentLint.Rule.Check
import ComponentLint.Text.Basic
import ComponentLint.Text.Letter

namespace ComponentLint.Check

open ComponentLint.Text

/-- Whether a call without arguments follows. -/
def emptyCall (cs : List Char) : Bool :=
  match cs.dropWhile isBlank with
  | '(' :: rest => (rest.dropWhile isBlank).head? == some ')'
  | _ => false

/-- Whether the characters start with a mark of positions: `.indices`, a range sign, or, where a
word can start, a call of `enumerated`. -/
def startsPositions (afterWord : Bool) (cs : List Char) : Bool :=
  (List.isPrefixOf? ".indices".toList cs).any atBoundary
    || (List.isPrefixOf? "..<".toList cs).isSome || (List.isPrefixOf? "...".toList cs).isSome
    || (!afterWord && (List.isPrefixOf? "enumerated".toList cs).any emptyCall)

/-- Whether a mark of positions is somewhere among the characters. -/
def hasPositions (afterWord : Bool) : List Char → Bool
  | [] => false
  | c :: rest => startsPositions afterWord (c :: rest) || hasPositions (isWord c) rest

/-- The identity given for the items, as a plain word. -/
def identityText? (n : Node) : Except Failure (Option String) :=
  match n.attr "id" with
  | .null => .ok none
  | v => do return some (trimText (← plainText v))

/-- The remark on a list that goes through positions without a stable identity. -/
def positionRemarks (ctx : Context) (name : String) : Except Failure (List Remark) :=
  match ctx.node.attr "data" with
  | .null => .ok []
  | data => do
    let source ← plainText data
    return if hasPositions false source.toList then
      [ctx.remark
        (s!"'{name}' iterates over positions ('{source}') without a stable "
          ++ "per-item identifier")
        "Iterate the items themselves and supply 'id:' with a stable key."]
    else []

/-- The remarks on a repeated list with an identity for its items, if one is given. -/
def identityRemarks (ctx : Context) (name : String) : Option String → Except Failure (List Remark)
  | none => positionRemarks ctx name
  | some identity =>
    if (ctx.names "positionalIds").contains identity then
      .ok [ctx.remark s!"'{name}' identifies items by position ('{identity}')"
        "Use a stable per-item identifier such as '\\.id'."]
    else if identity = "\\.self" then positionRemarks ctx name
    else .ok []

/-- A repeated list supplies a stable identity for each item (`check_stable_identity`). -/
def stableIdentity : Check := .ofAttempt fun ctx =>
  if ctx.node.isNamed (ctx.names "repeaters") then
    do identityRemarks ctx ctx.node.nameText (← identityText? ctx.node)
  else .ok []

end ComponentLint.Check

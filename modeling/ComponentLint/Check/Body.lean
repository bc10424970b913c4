-- Checks of a component's rendering function: how many lines it measures and
-- how deeply it nests.
import ComponentLint.Rule.Check

namespace ComponentLint.Check

open ComponentLint.Number

/-! ## Limits on rendering functions -/

/-- The component whose rendering function the node is (`_is_render_function`). -/
def renderedComponent? (ctx : Context) : Option Node :=
  ctx.parent?.filter fun parent =>
    parent.kind = .component && ctx.node.isNamed (ctx.names "bodyNames")

/-- A limit on rendering functions: the parameter that holds it, what it measures, and what is said
about a function that measures more. -/
structure RenderLimit where
  parameter : String
  measure : Model → Node → Int
  /-- The wording, from the name of the component, the measure and the limit. -/
  message : String → String → String → String
  suggestion : String

namespace RenderLimit

/-- The remark about the rendering function of a component. -/
def remark (l : RenderLimit) (ctx : Context) (component : Node) : Except LongInteger Remark := do
  let measured ← writeInt (l.measure ctx.model ctx.node)
  let limit ← writeInt (ctx.number l.parameter)
  return ctx.remark (l.message component.nameText measured limit) l.suggestion

/-- A rendering function must not measure more than allowed. -/
def check (l : RenderLimit) : Check := .ofAttempt fun ctx =>
  match renderedComponent? ctx with
  | none => .ok []
  | some component =>
    if l.measure ctx.model ctx.node > ctx.number l.parameter then
      do return [← (l.remark ctx component).mapError .ofLong]
    else .ok []

end RenderLimit

/-! ## Lines -/

/-- The limit on the lines that a rendering function spans. -/
def sizeLimit : RenderLimit where
  parameter := "maxBodyLines"
  measure m n := m.measured n.span
  message component measured limit :=
    s!"Rendering body of '{component}' spans {measured} lines (max {limit})"
  suggestion := "Extract parts of the body into smaller child components."

/-- A rendering function must not measure more lines than allowed (`check_body_size`). -/
def bodySize : Check := sizeLimit.check

/-! ## Nesting -/

/-- Whether a node of a kind makes a level of nesting. -/
def nests : Kind → Bool
  | .modifier => true
  | .closure => true
  | .component => true
  | _ => false

/-- The levels down to a node, with those above it. -/
def levelsTo (n : Node) (above : Nat) : Nat := if nests n.kind then above + 1 else above

/-- The most levels down to a node of an agenda or below it. With each node stand the levels above
it; its last child comes next. -/
def deepest : List (Node × Nat) → Nat → Nat
  | [], most => most
  | (n, above) :: rest, most =>
    deepest (n.children.reverse.map (Prod.mk · (levelsTo n above)) ++ rest)
      (max most (levelsTo n above))
termination_by agenda => Tree.forestSize (agenda.map Prod.fst)
decreasing_by
  simp only [List.map_append, List.map_map, List.map_cons, Function.comp_def, List.map_id',
    Tree.forestSize_append, Tree.forestSize_reverse, Tree.forestSize, Tree.size_eq n]
  omega

/-- The most levels on a way down from the children of a node (`_max_nesting`). -/
def maxNesting (n : Node) : Nat := deepest (n.children.reverse.map (Prod.mk · 0)) 0

/-- The limit on the levels that a rendering function nests. -/
def nestingLimit : RenderLimit where
  parameter := "maxDepth"
  measure _ n := maxNesting n
  message component depth limit :=
    s!"Rendering body of '{component}' nests {depth} levels deep (max {limit})"
  suggestion := "Flatten the hierarchy by extracting nested sections into components."

/-- A rendering function must not nest more deeply than allowed (`check_nesting_depth`). -/
def nestingDepth : Check := nestingLimit.check

end ComponentLint.Check

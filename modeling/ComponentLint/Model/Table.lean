-- Nodes linked by index, the form in which a front end hands them over. A
-- node may be named as a child more than once, or be its own descendant, so
-- the links make a graph. Checking follows the links from the roots in
-- pre-order and ends at the first node that is met again or breaks a rule.
-- Otherwise the graph was a forest, and the check has listed its nodes and
-- noted the parent of each and the last node with each span.
import ComponentLint.Model.Malformed

namespace ComponentLint

/-! ## The rules at one node -/

/-- Checks neighbours among siblings: each stands in source order and apart from the next
(`_check_siblings`). -/
def checkSiblings (parent : Option Heading) : List Heading → Except Defect Unit
  | a :: b :: rest =>
    if a.span.order b.span = .gt then .error (.unordered b parent)
    else if a.span.overlaps b.span then .error (.overlapping b a)
    else checkSiblings parent (b :: rest)
  | _ => .ok ()

/-- Checks that a node covers each of its children. -/
def checkContained (parent : Heading) : List Heading → Except Defect Unit
  | [] => .ok ()
  | child :: rest =>
    if parent.span.contains child.span then checkContained parent rest
    else .error (.outsideParent child parent)

/-- Checks a node of a unit's file against its children, and settles its kind. -/
def Entry.check (file : String) (children : List Heading) (e : Entry String) :
    Except Defect (Entry Kind) :=
  match Kind.ofName? e.kind with
  | none => .error (.unknownKind e.heading)
  | some kind =>
    if e.span.file ≠ file then .error (.foreignFile e.heading file)
    else if e.span.inverted then .error (.inverted e.heading)
    else do
      checkContained e.heading children
      checkSiblings (some e.heading) children
      return { e with kind }

/-! ## Tables of linked nodes -/

/-- One row of a table: a node and the rows of its children. -/
structure Row (n : Nat) where
  entry : Entry String
  children : List (Fin n)

/-- Nodes linked by index. -/
structure NodeTable where
  size : Nat
  row : Fin size → Row size

/-- What a check has noted down about the rows it has met. Nodes are numbered in the order in which
they are met. -/
structure Register (n : Nat) where
  /-- The rows, each with the number of its parent. -/
  parents : List (Fin n × Option Nat) := []
  /-- The spans, each with the number of the node that has it, the newest first. -/
  bySpan : List (Span × Nat) := []
  /-- The nodes, each with how many children it has. -/
  nodes : List (Entry Kind × Nat) := []

namespace Register

variable {n : Nat}

/-- Whether a row has been met. -/
def has (reg : Register n) (i : Fin n) : Bool := reg.parents.any fun e => e.1 == i

/-- The number that the next node gets. -/
def next (reg : Register n) : Nat := reg.parents.length

/-- Notes a row that has passed the check. -/
def add (reg : Register n) (i : Fin n) (parent : Option Nat) (entry : Entry Kind)
    (children : Nat) : Register n where
  parents := reg.parents ++ [(i, parent)]
  bySpan := (entry.span, reg.next) :: reg.bySpan
  nodes := reg.nodes ++ [(entry, children)]

/-- How many rows have not been met. -/
def unmet (reg : Register n) : Nat := ((List.finRange n).filter fun i => !reg.has i).length

theorem has_add (reg : Register n) (i j : Fin n) (parent : Option Nat) (entry : Entry Kind)
    (children : Nat) : (reg.add i parent entry children).has j = (reg.has j || i == j) := by
  simp [has, add]

theorem unmet_add_lt (reg : Register n) (i : Fin n) (parent : Option Nat) (entry : Entry Kind)
    (children : Nat) (h : reg.has i = false) :
    (reg.add i parent entry children).unmet < reg.unmet := by
  have hfewer : ((List.finRange n).filter fun j => !(reg.add i parent entry children).has j) =
      ((List.finRange n).filter fun j => !reg.has j).filter fun j => !(i == j) := by
    simp only [has_add, Bool.not_or, List.filter_filter, Bool.and_comm]
  rw [unmet, unmet, hfewer, List.length_filter_lt_length_iff_exists]
  exact ⟨i, by simp [h, List.mem_finRange], by simp⟩

end Register

namespace NodeTable

/-- The heading of the node in a row. -/
def heading (t : NodeTable) (i : Fin t.size) : Heading := (t.row i).entry.heading

/-- The headings of the children of the node in a row. -/
def headingsBelow (t : NodeTable) (i : Fin t.size) : List Heading :=
  (t.row i).children.map t.heading

/-- The agenda for some rows below a parent with a number. -/
def agendaFor (t : NodeTable) (parent : Option Nat) (rows : List (Fin t.size)) :
    List (Fin t.size × Option Nat) :=
  rows.map (·, parent)

/-- Checks the rows of an agenda one after the other; the children of a row come next. With each
row stands the number of its parent (the loop of `StructuralModel._validate`). -/
def checkAgenda (t : NodeTable) (file : String) :
    List (Fin t.size × Option Nat) → Register t.size → Except Defect (Register t.size)
  | [], reg => .ok reg
  | (i, parent) :: rest, reg =>
    if _h : reg.has i then .error (.shared (t.heading i))
    else
      match (t.row i).entry.check file (t.headingsBelow i) with
      | .error defect => .error defect
      | .ok entry =>
        let children := (t.row i).children
        checkAgenda t file (t.agendaFor (some reg.next) children ++ rest)
          (reg.add i parent entry children.length)
termination_by _ reg => reg.unmet
decreasing_by exact reg.unmet_add_lt _ _ _ _ (by simpa using _h)

/-- Checks the nodes that the given roots of a table lead to (`StructuralModel._validate`). -/
def check (t : NodeTable) (file : String) (roots : List (Fin t.size)) :
    Except Defect (Register t.size) := do
  checkSiblings none (roots.map t.heading)
  t.checkAgenda file (t.agendaFor none roots) {}

end NodeTable

/-! ## Tables of submitted trees -/

namespace Draft

/-- The numbers of the roots of submitted trees, whose nodes are numbered from `first` on. -/
def numbers (first : Nat) : List Draft → List Nat
  | [] => []
  | t :: ts => first :: numbers (first + t.size) ts

mutual

/-- The nodes of a submitted tree, numbered from `first` on, each with the numbers of its
children. -/
def rows (first : Nat) : Draft → List (Entry String × List Nat)
  | .node e ts => (e, numbers (first + 1) ts) :: rowsAmong (first + 1) ts

/-- The nodes of several submitted trees. -/
def rowsAmong (first : Nat) : List Draft → List (Entry String × List Nat)
  | [] => []
  | t :: ts => rows first t ++ rowsAmong (first + t.size) ts

end

end Draft

namespace NodeTable

/-- The row with a number, when there is one. -/
def numbered? (n i : Nat) : Option (Fin n) := if h : i < n then some ⟨i, h⟩ else none

/-- The table that submitted trees unfold to, their nodes in pre-order. -/
def ofDrafts (roots : List Draft) : NodeTable :=
  let rows := Draft.rowsAmong 0 roots
  ⟨rows.length, fun i => ⟨(rows.get i).1, (rows.get i).2.filterMap (numbered? rows.length)⟩⟩

/-- The rows of the roots in the table that submitted trees unfold to. -/
def rootsOf (roots : List Draft) : List (Fin (ofDrafts roots).size) :=
  (Draft.numbers 0 roots).filterMap (numbered? _)

end NodeTable

end ComponentLint

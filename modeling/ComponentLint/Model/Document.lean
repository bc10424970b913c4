-- Reading a unit from a decoded document: a mapping with the file's name,
-- its source text, its nodes and the suppressions declared beside them.
import ComponentLint.Model.Basic
import ComponentLint.Number.Literal

namespace ComponentLint

open ComponentLint.Number ComponentLint.Text

/-! ## Why a document gives no unit -/

/-- Why the column of a suppression is not a number. -/
inductive ColumnFault where
  /-- A text or binary data, as it is written, that is no integer. -/
  | literal (written : String) (fault : IntFault)
  /-- A value of a type that has no integer. -/
  | type (name : String)
  | infinite
  | nan
  deriving DecidableEq, Repr

namespace ColumnFault

def message : ColumnFault → String
  | literal written fault => fault.message 10 written
  | type name =>
    "int() argument must be a string, a bytes-like object or a real number, not '" ++ name ++ "'"
  | infinite => "cannot convert float infinity to integer"
  | nan => "cannot convert float NaN to integer"

/-- The class a fault is reported under. -/
def className : ColumnFault → String
  | literal _ _ => "ValueError"
  | type _ => "TypeError"
  | infinite => "OverflowError"
  | nan => "ValueError"

end ColumnFault

/-- Why a document gives no unit. -/
inductive LoadFault where
  | malformed (cause : Malformed)
  | column (fault : ColumnFault)
  /-- An integer has too many digits to be written. -/
  | longInteger
  /-- A part of the document holds itself. -/
  | bottomless
  deriving Repr

namespace LoadFault

/-- The fault that the checks of a unit end in. -/
def ofStop : Stop Malformed → LoadFault
  | .refused cause => malformed cause
  | .longInteger => longInteger

/-- The fault that writing a value ends in. -/
def ofLong (_ : LongInteger) : LoadFault := longInteger

/-- The fault that freezing a value ends in. -/
def ofFreezing : Stop Value.Endless → LoadFault
  | .refused _ => bottomless
  | .longInteger => longInteger

/-- A faulty node. -/
def node (path : NodePath) (fault : NodeFault) : LoadFault := ofStop (Defect.node path fault).raised

/-- A faulty node, or one with an integer that is too long. -/
def atNode (path : NodePath) : Stop NodeFault → LoadFault
  | .refused fault => node path fault
  | .longInteger => longInteger

/-- A document that is faulty as a whole. -/
def document (origin : String) (fault : DocumentFault) : LoadFault :=
  ofStop (Defect.document origin fault).raised

end LoadFault

namespace Document

/-! ## The fields of a node -/

/-- A number of a span: an integer from one on. -/
def positive? : Value → Option Int
  | .int n => if 1 ≤ n then some n else none
  | _ => none

/-- A span from its four numbers. -/
def spanOf (file : String) (values : List Value) : Except (Stop NodeFault) Span :=
  match values.map positive? with
  | [some startLine, some startCol, some endLine, some endCol] =>
    .ok ⟨file, startLine, startCol, endLine, endCol⟩
  | _ => do
    let written ← Stop.writing (Value.list values).written
    throw (.refused (.spanNumbers written))

/-- The fields of a span that is written as a mapping. -/
def spanFields : List String := ["start_line", "start_col", "end_line", "end_col"]

/-- The values of some fields, all of which have to be there. -/
def requiredFields (v : Value) : List String → Except (Stop NodeFault) (List Value)
  | [] => .ok []
  | name :: rest => do
    let some first := v.field? name | throw (.refused (.spanMissing name))
    return first :: (← requiredFields v rest)

/-- The span of a node, written as a list or as a mapping (`_parse_span`). -/
def readSpan (file : String) (v : Value) : Except (Stop NodeFault) Span :=
  match v.unfold with
  | .list values => spanOf file values
  | .map _ => do spanOf file (← requiredFields v spanFields)
  | _ => .error (.refused .spanForm)

/-- The name of a node; what is no text is written as one. -/
def readName : Value → Except LongInteger (Option String)
  | .null => .ok none
  | v => v.toText.map some

/-- The arguments of an annotation: a list of them, a single one, or none. -/
def readArguments (v : Value) : Except LongInteger (List String) :=
  match v.unfold with
  | .null => .ok []
  | .list args => args.mapM Value.toText
  | _ => do return [← v.toText]

/-- An annotation and its arguments. -/
def readAnnotationEntry (name args : Value) : Except LongInteger (String × List String) := do
  return (← name.toText, ← readArguments args)

/-- The annotations of a node, with arguments or as bare names. -/
def readAnnotations (v : Value) : Except (Stop NodeFault) (Entries (List String)) :=
  if v.truthy then
    match v.unfold with
    | .list names => do
      let read ← Stop.writing (names.mapM fun n => readAnnotationEntry n .null)
      return Entries.ofList read
    | .map entries => do
      let read ← Stop.writing (entries.mapM fun e => readAnnotationEntry e.1 e.2)
      return Entries.ofList read
    | _ => .error (.refused .annotations)
  else .ok []

/-- The entries of a node's attributes. -/
def attributeEntries (v : Value) : Except NodeFault (List (Value × Value)) :=
  if v.truthy then
    match v.unfold with
    | .map entries => .ok entries
    | _ => .error .attributes
  else .ok []

/-- The attributes of a node: lists are frozen and keys are texts. -/
def readAttributes (entries : List (Value × Value)) : Except LoadFault (Entries Value) :=
  (Value.freezeEntries entries []).mapError .ofFreezing

theorem sizeOf_entry?_lt {key : String} {entries : List (Value × Value)} {v : Value}
    (h : Value.entry? key entries = some v) : sizeOf v < sizeOf entries := by
  induction entries with
  | nil => simp [Value.entry?] at h
  | cons e rest ih =>
    obtain ⟨k, w⟩ := e
    unfold Value.entry? at h
    split at h
    · simp at h
    · rename_i heq
      simp only [List.cons.injEq, Prod.mk.injEq] at heq
      obtain ⟨⟨-, rfl⟩, rfl⟩ := heq
      split at h
      · simp only [Option.some.injEq] at h
        subst h
        simp only [List.cons.sizeOf_spec, Prod.mk.sizeOf_spec]
        omega
      · have := ih h
        simp only [List.cons.sizeOf_spec]
        omega
    · rename_i heq
      simp only [List.cons.injEq] at heq
      obtain ⟨-, rfl⟩ := heq
      have := ih h
      simp only [List.cons.sizeOf_spec]
      omega

/-! ## Nodes -/

/-- How often documents that hold themselves are opened on the way down to a node, before they are
given up. -/
def maxTurns : Nat := 1000

mutual

/-- The node a document describes, and those below it. A document that holds itself is opened, as
long as there are turns left (`_parse_node`). -/
def readNode (file : String) (turns : Nat) (path : NodePath) (v : Value) :
    Except LoadFault Draft :=
  match v with
  | .map entries => do
    let some (.str kind) := Value.entry? "kind" entries | throw (.node path .noKind)
    let span ← (readSpan file (v.field "span")).mapError (LoadFault.atNode path)
    let name ← (readName (v.field "name")).mapError .ofLong
    let annotations ← (readAnnotations (v.field "annotations")).mapError (LoadFault.atNode path)
    let attributes ← (attributeEntries (v.field "attributes")).mapError (LoadFault.node path)
    let children ← match _h : Value.entry? "children" entries with
      | none => .ok []
      | some (.list items) => readChildren file turns path 0 items
      | some (.knot label body) =>
        match turns, (Value.knot label body).unfold with
        | 0, _ => .error .bottomless
        | turns + 1, .list items => readChildren file turns path 0 items
        | _, _ => .error (.node path .children)
      | some w => if w.truthy then .error (.node path .children) else .ok []
    let attributes ← readAttributes attributes
    return .node ⟨kind, name, span, annotations, attributes⟩ children
  | .knot label body =>
    match turns with
    | 0 => throw .bottomless
    | turns + 1 => readNode file turns path (Value.knot label body).unfold
  | _ => throw (.node path .notMapping)
termination_by (turns, sizeOf v)
decreasing_by
  · have := sizeOf_entry?_lt _h
    simp only [Value.list.sizeOf_spec] at this
    simp only [Value.map.sizeOf_spec]
    apply Prod.Lex.right
    omega
  · apply Prod.Lex.left
    omega
  · apply Prod.Lex.left
    omega

/-- The children that documents describe, numbered from `first`. -/
def readChildren (file : String) (turns : Nat) (path : NodePath) (first : Nat)
    (items : List Value) : Except LoadFault (List Draft) :=
  match items with
  | [] => .ok []
  | v :: rest => do
    let child ← readNode file turns (path.child first) v
    return child :: (← readChildren file turns path (first + 1) rest)
termination_by (turns, sizeOf items)

end

/-- The top-level nodes that documents describe, numbered from `first`. -/
def readRoots (file origin : String) : Nat → List Value → Except LoadFault (List Draft)
  | _, [] => .ok []
  | first, v :: rest => do
    let root ← readNode file maxTurns ⟨origin, first, []⟩ v
    return root :: (← readRoots file origin (first + 1) rest)

/-! ## Declared suppressions -/

/-- A line number from one on. -/
def readLine? : Value → Option Numeral
  | .int n => if 1 ≤ n then some (.int n) else none
  | .bool true => some (.flag true)
  | _ => none

/-- The characters of binary data that is to hold a number; what is not ASCII is part of none. -/
def asciiChars (content : List UInt8) : List Char :=
  content.map fun b => if b < 128 then Char.ofNat b.toNat else '\ufffd'

/-- A column: an integer, or what can be read as one. -/
def readColumn : Value → Except ColumnFault Int
  | .int n => .ok n
  | .bool b => .ok (if b then 1 else 0)
  | .float (.infinite _) => .error .infinite
  | .float x => (x.truncate?).elim (.error .nan) .ok
  | .str s => (readInt 10 s.toList).mapError (.literal (quoted s))
  | .bytes content =>
    (readInt 10 (asciiChars content)).mapError (.literal (Value.bytesWritten (content.take 200)))
  | v => .error (.type v.typeName)

/-- One declared suppression. -/
def readSuppression (file origin : String) (index : Nat) (v : Value) :
    Except LoadFault Suppression :=
  match v.unfold with
  | .map entries => do
    let fault := LoadFault.document origin (.suppressionFields index)
    let some (.str rule) := Value.entry? "rule" entries | throw fault
    let some line := readLine? (v.field "line") | throw fault
    let column ← (readColumn ((v.field? "column").getD (.int 1))).mapError LoadFault.column
    return ⟨file, rule, line, line, .int column⟩
  | _ => throw (.document origin (.suppressionForm index))

/-- Declared suppressions, numbered from `first`. -/
def readSuppressionsFrom (file origin : String) :
    Nat → List Value → Except LoadFault (List Suppression)
  | _, [] => .ok []
  | first, v :: rest => do
    let s ← readSuppression file origin first v
    return s :: (← readSuppressionsFrom file origin (first + 1) rest)

/-- The suppressions that a document declares (`_parse_declared_suppressions`). -/
def readSuppressions (file origin : String) (v : Value) : Except LoadFault (List Suppression) :=
  match v.unfold with
  | .null => .ok []
  | .list items => readSuppressionsFrom file origin 0 items
  | _ => throw (.document origin .suppressionsForm)

/-! ## The document as a whole -/

/-- The name of the file a document describes; a blank one does not count. -/
def readFile? (v : Value) : Option String :=
  (v.field "file").text?.filter fun s => !allBlank s.toList

/-- The documents of the top-level nodes. -/
def rootDocuments (origin : String) (v : Value) : Except LoadFault (List Value) :=
  match (v.field? "nodes").map Value.unfold with
  | none => .ok []
  | some (.list items) => .ok items
  | some _ => throw (.document origin .nodesForm)

/-- The source lines a document holds. -/
def readLines (origin : String) (v : Value) : Except LoadFault (List String) :=
  match v.field? "source" with
  | none => .ok []
  | some (.str s) => .ok (linesOf s)
  | some _ => throw (.document origin .sourceForm)

end Document

/-- The unit a document describes (`parse_model`). -/
def Model.ofDocument (origin : String) (v : Value) : Except LoadFault Model :=
  match v.unfold with
  | .map _ => do
    let some file := Document.readFile? v | throw (.document origin .noFile)
    let lines ← Document.readLines origin v
    let documents ← Document.rootDocuments origin v
    let roots ← Document.readRoots file origin 0 documents
    let declared ← Document.readSuppressions file origin (v.field "suppressions")
    (Model.ofDrafts file roots lines (Suppression.ofLines file lines ++ declared)).mapError
      LoadFault.ofStop
  | _ => throw (.document origin .notMapping)

end ComponentLint

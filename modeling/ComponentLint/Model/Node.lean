-- The nodes of a unit: what kind of thing a piece of source is, its name,
-- its span, its annotations and the facts a front end found out about it.
import ComponentLint.Entries
import ComponentLint.Model.Tree
import ComponentLint.Source.Span
import ComponentLint.Text.Quoted

namespace ComponentLint

open ComponentLint.Number ComponentLint.Text

/-! ## Kinds -/

/-- The kinds of nodes. -/
inductive Kind where
  | annotationMark
  | closure
  | component
  | function
  | identifier
  | modifier
  | property
  deriving DecidableEq, Repr

namespace Kind

/-- Every kind, in the order of their names. -/
def all : List Kind :=
  [annotationMark, closure, component, function, identifier, modifier, property]

def name : Kind → String
  | annotationMark => "annotation"
  | closure => "closure"
  | component => "component"
  | function => "function"
  | identifier => "identifier"
  | modifier => "modifier"
  | property => "property"

/-- The name of a kind with a capital. -/
def title : Kind → String
  | annotationMark => "Annotation"
  | closure => "Closure"
  | component => "Component"
  | function => "Function"
  | identifier => "Identifier"
  | modifier => "Modifier"
  | property => "Property"

/-- The kind with a given name. -/
def ofName? (s : String) : Option Kind := all.find? fun k => k.name == s

end Kind

/-! ## Entries of a tree -/

/-- What a node is called in messages: its kind, its name and where it starts. -/
structure Heading where
  kind : String
  name : Option String
  span : Span
  deriving DecidableEq, Repr

/-- The text of a heading; an absent or empty name is left out (`Node.__repr__`). -/
def Heading.toText (h : Heading) : Except LongInteger String := do
  let label := match h.name with
    | some n => if n.isEmpty then "" else " " ++ quoted n
    | none => ""
  return "<Node " ++ h.kind ++ label ++ " at " ++ (← h.span.toText) ++ ">"

/-- One node without its children. Its kind is a name until it has been checked. -/
structure Entry (κ : Type) where
  kind : κ
  name : Option String
  span : Span
  annotations : Entries (List String) := []
  attributes : Entries Value := []
  deriving Repr

namespace Entry

variable {κ : Type}

/-- Whether one of the annotations is among the names (`Node.has_annotation`). -/
def hasAnnotation (e : Entry κ) (names : List String) : Bool :=
  names.any fun n => e.annotations.has n

/-- The first annotation, in source order, that is among the names (`Node.first_annotation`). -/
def firstAnnotation? (e : Entry κ) (names : List String) : Option String :=
  e.annotations.names.find? names.contains

/-- A fact about the node, if there is one of that name. -/
def attr? (e : Entry κ) (key : String) : Option Value := e.attributes.get? key

/-- A fact about the node, null when there is none of that name (`Node.attr`). -/
def attr (e : Entry κ) (key : String) : Value := (e.attr? key).getD .null

end Entry

/-- A node as it was submitted, its kind still a name. -/
abbrev Draft := Tree (Entry String)

/-- A checked node. -/
abbrev Node := Tree (Entry Kind)

/-- The heading of a submitted node. -/
def Entry.heading (e : Entry String) : Heading := ⟨e.kind, e.name, e.span⟩

namespace Tree

def kind (n : Node) : Kind := n.value.kind

def name (n : Node) : Option String := n.value.name

def span (n : Node) : Span := n.value.span

/-- The name of a node in a message, `None` when it has none. -/
def nameText (n : Node) : String := n.name.getD "None"

/-- A fact about a node, null when there is none of that name. -/
def attr (n : Node) (key : String) : Value := n.value.attr key

/-- Whether a node has a name and it is among the given ones. -/
def isNamed (n : Node) (names : List String) : Bool := (n.name.map names.contains).getD false

def heading (n : Node) : Heading := ⟨n.kind.name, n.name, n.span⟩

/-- What a node is called in messages. -/
def toText (n : Node) : Except LongInteger String := n.heading.toText

end Tree

end ComponentLint

-- The nodes of a YAML document: scalars, sequences and mappings with their
-- tags looked up, and aliases of nodes that were given a name before.
import ComponentLint.Yaml.Scan
import ComponentLint.Yaml.Tag

namespace ComponentLint.Yaml

/-- A node of a document. -/
inductive Node where
  | alias (name : String)
  | scalar (anchor : Option String) (tag : Tag) (text : String)
  | sequence (anchor : Option String) (tag : Tag) (items : List Node)
  | mapping (anchor : Option String) (tag : Tag) (pairs : List (Node × Node))
  deriving Repr

/-- A node that is not written down. -/
def Node.absent : Node := .scalar none .null ""

/-- The state of reading a document: the tokens to come, what is wrong behind them, the names that
nodes have, and what tag handles stand for. -/
structure Reading where
  tokens : List Token
  fault : Option Fault := none
  names : List String := []
  handles : List (String × String) := [("!", "!"), ("!!", "tag:yaml.org,2002:")]

namespace Reading

/-- The next token, none at the end of the text. -/
def peek (r : Reading) : Except Fault (Option Token) :=
  match r.tokens, r.fault with
  | t :: _, _ => .ok (some t)
  | [], some fault => .error fault
  | [], none => .ok none

/-- The state after the next token. -/
def next (r : Reading) : Reading := { r with tokens := r.tokens.tail }

/-- Gives a node a name, if there is one, which no other node has. -/
def named (r : Reading) (anchor : Option String) : Except Fault Reading := do
  match anchor with
  | some a =>
    require (!r.names.contains a)
    return { r with names := a :: r.names }
  | none => return r

/-- The properties of a node: an anchor and a tag, in either order. -/
structure Properties where
  anchor : Option String := none
  tag : Option (Option String × String) := none

/-- Reads the properties of a node. -/
def properties (r : Reading) : Except Fault (Properties × Reading) := do
  match ← r.peek with
  | some (.anchor a) =>
    match ← r.next.peek with
    | some (.tag h t) => return (⟨some a, some (h, t)⟩, r.next.next)
    | _ => return (⟨some a, none⟩, r.next)
  | some (.tag h t) =>
    match ← r.next.peek with
    | some (.anchor a) => return (⟨some a, some (h, t)⟩, r.next.next)
    | _ => return (⟨none, some (h, t)⟩, r.next)
  | _ => return ({}, r)

/-- The full name of a tag, its handle looked up. -/
def fullTag (r : Reading) : Option (Option String × String) → Except Fault (Option String)
  | none => .ok none
  | some (none, rest) => .ok (some rest)
  | some (some handle, rest) => do
    let start ← orInvalid (r.handles.lookup handle)
    return some (start ++ rest)

/-- The tag of a scalar. Without one it is text when it is quoted; otherwise, and under a lone
exclamation mark, the form of the text decides. -/
def scalarTag (tag : Option String) (plain : Bool) (text : String) : Tag :=
  match tag with
  | none => if plain then .ofPlain text else .str
  | some "!" => .ofPlain text
  | some t => .ofName t

/-- The tag of a collection, the usual one unless another is given. -/
def collectionTag (usual : Tag) : Option String → Tag
  | none => usual
  | some "!" => usual
  | some t => .ofName t

mutual

/-- Reads a node. In a block, collections may be written as blocks; the items of a sequence may
then also stand as deep as the key before them. -/
def node (inBlock itemsHere : Bool) : Nat → Reading → Except Fault (Node × Reading)
  | 0, _ => .error .invalid
  | fuel + 1, r => do
    match ← r.peek with
    | some (.alias a) =>
      require (r.names.contains a)
      return (.alias a, r.next)
    | _ =>
      let (props, r) ← r.properties
      let tag ← r.fullTag props.tag
      let first ← r.peek
      let r ← r.named props.anchor
      let sequence := Node.sequence props.anchor (collectionTag .seq tag)
      let mapping := Node.mapping props.anchor (collectionTag .map tag)
      match first with
      | some (.scalar text plain) =>
        return (.scalar props.anchor (scalarTag tag plain text) text, r.next)
      | some .flowSequence =>
        let (items, r) ← flowItems true fuel r.next
        return (sequence items, r)
      | some .flowMapping =>
        let (pairs, r) ← flowPairs true fuel r.next
        return (mapping pairs, r)
      | some .blockSequence =>
        require inBlock
        let (items, r) ← blockItems fuel r.next
        return (sequence items, r)
      | some .blockMapping =>
        require inBlock
        let (pairs, r) ← blockPairs fuel r.next
        return (mapping pairs, r)
      | _ =>
        if itemsHere && first = some .blockEntry then
          let (items, r) ← indentlessItems fuel r
          return (sequence items, r)
        else
          require (props.anchor.isSome || props.tag.isSome)
          return (.scalar props.anchor (scalarTag tag true "") "", r)

/-- Reads a node, or nothing at all before one of the given tokens or the end. -/
def nodeBefore (inBlock itemsHere : Bool) (ends : List Token) :
    Nat → Reading → Except Fault (Node × Reading)
  | 0, _ => .error .invalid
  | fuel + 1, r => do
    if (← r.peek).any ends.contains then return (.absent, r) else node inBlock itemsHere fuel r

/-- Reads the value after a key, if there is one before the given tokens. -/
def valueBefore (inBlock : Bool) (ends : List Token) :
    Nat → Reading → Except Fault (Node × Reading)
  | 0, _ => .error .invalid
  | fuel + 1, r => do
    if (← r.peek) = some .value then nodeBefore inBlock inBlock ends fuel r.next
    else return (.absent, r)

/-- Reads the items of a block sequence up to its end. -/
def blockItems : Nat → Reading → Except Fault (List Node × Reading)
  | 0, _ => .error .invalid
  | fuel + 1, r => do
    match ← r.peek with
    | some .blockEntry =>
      let (n, r) ← nodeBefore true false [.blockEntry, .blockEnd] fuel r.next
      let (rest, r) ← blockItems fuel r
      return (n :: rest, r)
    | some .blockEnd => return ([], r.next)
    | _ => throw .invalid

/-- Reads the items of a sequence that stand as deep as the key before them. -/
def indentlessItems : Nat → Reading → Except Fault (List Node × Reading)
  | 0, _ => .error .invalid
  | fuel + 1, r => do
    match ← r.peek with
    | some .blockEntry =>
      let (n, r) ← nodeBefore true false [.blockEntry, .key, .value, .blockEnd] fuel r.next
      let (rest, r) ← indentlessItems fuel r
      return (n :: rest, r)
    | _ => return ([], r)

/-- Reads the pairs of a block mapping up to its end. -/
def blockPairs : Nat → Reading → Except Fault (List (Node × Node) × Reading)
  | 0, _ => .error .invalid
  | fuel + 1, r => do
    let ends := [Token.key, .value, .blockEnd]
    match ← r.peek with
    | some .key =>
      let (k, r) ← nodeBefore true true ends fuel r.next
      let (v, r) ← valueBefore true ends fuel r
      let (rest, r) ← blockPairs fuel r
      return ((k, v) :: rest, r)
    | some .blockEnd => return ([], r.next)
    | _ => throw .invalid

/-- Reads a key and its value in a flow collection; both may be missing before its end. -/
def flowPair (close : Token) : Nat → Reading → Except Fault ((Node × Node) × Reading)
  | 0, _ => .error .invalid
  | fuel + 1, r => do
    let (k, r) ← nodeBefore false false [.value, .flowEntry, close] fuel r
    let (v, r) ← valueBefore false [.flowEntry, close] fuel r
    return ((k, v), r)

/-- Reads the items of a flow sequence up to its end. A key with its value is a mapping of one
pair. -/
def flowItems (first : Bool) : Nat → Reading → Except Fault (List Node × Reading)
  | 0, _ => .error .invalid
  | fuel + 1, r => do
    if (← r.peek) = some .flowSequenceEnd then return ([], r.next)
    else
      require (first || (← r.peek) = some .flowEntry)
      let r := if first then r else r.next
      match ← r.peek with
      | some .flowSequenceEnd => return ([], r.next)
      | some .key =>
        let (pair, r) ← flowPair .flowSequenceEnd fuel r.next
        let (rest, r) ← flowItems false fuel r
        return (.mapping none .map [pair] :: rest, r)
      | _ =>
        let (n, r) ← node false false fuel r
        let (rest, r) ← flowItems false fuel r
        return (n :: rest, r)

/-- Reads the pairs of a flow mapping up to its end. -/
def flowPairs (first : Bool) : Nat → Reading → Except Fault (List (Node × Node) × Reading)
  | 0, _ => .error .invalid
  | fuel + 1, r => do
    if (← r.peek) = some .flowMappingEnd then return ([], r.next)
    else
      require (first || (← r.peek) = some .flowEntry)
      let r := if first then r else r.next
      match ← r.peek with
      | some .flowMappingEnd => return ([], r.next)
      | some .key =>
        let (pair, r) ← flowPair .flowMappingEnd fuel r.next
        let (rest, r) ← flowPairs false fuel r
        return (pair :: rest, r)
      | _ =>
        let (k, r) ← node false false fuel r
        let (rest, r) ← flowPairs false fuel r
        return ((k, .absent) :: rest, r)

end

/-! ## Documents -/

/-- Whether a token starts with a directive sign. -/
def isDirective : Token → Bool
  | .versionDirective _ => true
  | .tagDirective _ _ => true
  | .otherDirective => true
  | _ => false

/-- Reads the directives before a document: at most one version, the first, and each handle
once. -/
def directives : List Token → Bool → List (String × String) →
    Except Fault (List (String × String) × List Token)
  | .versionDirective major :: rest, seen, handles => do
    require (!seen && major = 1)
    directives rest true handles
  | .tagDirective handle start :: rest, seen, handles => do
    require (handles.lookup handle).isNone
    directives rest seen ((handle, start) :: handles)
  | .otherDirective :: rest, seen, handles => directives rest seen handles
  | rest, _, handles => .ok (handles, rest)

/-- How many steps reading the tokens to come can take. -/
def steps (r : Reading) : Nat := 5 * r.tokens.length + 5

/-- The content of a document after its start. -/
def content (r : Reading) : Except Fault (Node × Reading) := do
  match ← r.peek with
  | none => return (.absent, r)
  | some t =>
    if isDirective t || t = .documentStart || t = .documentEnd then return (.absent, r)
    else node true false r.steps r

/-- Checks that nothing but document ends follows. -/
def finish (r : Reading) : List Token → Except Fault Unit
  | [] => r.fault.elim (.ok ()) .error
  | t :: rest => if t = .documentEnd then finish r rest else .error .invalid

/-- Reads a document that starts with directives or a separator. -/
def explicitDocument (r : Reading) : Except Fault (Node × Reading) := do
  let (handles, rest) ← directives r.tokens false []
  let r := { r with tokens := rest, handles := handles ++ r.handles }
  require ((← r.peek) = some .documentStart)
  content r.next

/-- Reads the only document of a text, none when there is none. -/
def document (r : Reading) : Except Fault (Option Node) := do
  match ← r.peek with
  | none => return none
  | some t =>
    let (n, rest) ←
      if isDirective t || t = .documentStart then explicitDocument r
      else node true false r.steps r
    finish rest rest.tokens
    return some n

end Reading

/-- The only node of a text, none when the text is empty. -/
def Node.ofText (text : List Char) : Except Fault (Option Node) :=
  let stream := TokenStream.ofText text
  Reading.document { tokens := stream.tokens, fault := stream.fault }

end ComponentLint.Yaml

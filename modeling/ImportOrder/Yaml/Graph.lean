import ImportOrder.Yaml.Kind
import ImportOrder.Yaml.Token

/-!
# YAML documents as graphs

The tokens of a text form at most one document, whose nodes are scalars, sequences and mappings. Nodes refer to
others by number, and an alias to the node that its anchor stands on, so that a collection may hold itself.
-/

namespace ImportOrder.Yaml

/-- What a node is made of. -/
inductive Content where
  | scalar (text : Text)
  | sequence (items : List Nat)
  | mapping (entries : List (Nat × Nat))

/-- A node of a document. -/
structure Node where
  kind : Kind
  content : Content

/-- The nodes of a document by number. -/
abbrev Graph := Array Node

/-- A graph and the number of the node that stands for the whole document. -/
structure Document where
  graph : Graph
  root : Nat

/-- What tag handles stand for. -/
abbrev Handles := List (Text × Text)

/-- The handles that every document has. -/
def defaultHandles : Handles :=
  [(['!'], ['!']), (['!', '!'], Kind.coreTag.toList)]

/-- The state of building: how many collections may stand inside each other, the tokens to come, the number of
collections around them, the handles, the nodes so far, and the nodes that have anchors. -/
structure Builder where
  limit : Nat
  tokens : List Token
  depth : Nat := 0
  handles : Handles := defaultHandles
  graph : Graph := #[]
  anchors : List (Text × Nat) := []

/-- A step of building. -/
abbrev Build := StateT Builder (Except Error)

namespace Build

/-- Refuses the tokens. -/
def fail {α : Type} (reason : String) : Build α :=
  throw (.malformed .nodes reason)

/-- The next token; a fault among the tokens is met when it is looked at. -/
def peek : Build Token := do
  match (← get).tokens.head? with
  | some (.fault error) => throw error
  | some token => return token
  | none => return .endOfText

/-- Leaves the next token behind. -/
def advance : Build Unit :=
  modify fun builder => { builder with tokens := builder.tokens.tail }

/-- Whether the next token is one of these. -/
def sees (tokens : List Token) : Build Bool := do
  return tokens.contains (← peek)

/-- Leaves the next token behind if it is this one, and tells whether it was. -/
def accept (token : Token) : Build Bool := do
  if ← sees [token] then
    advance
    return true
  else return false

/-- Whether an item may follow in brackets: the first as it is, the others after a comma. -/
def divided (first : Bool) : Build Bool :=
  if first then return true else accept .flowEntry

/-- The full tag that a handle and a rest stand for. -/
def resolveTag (handle : Option Text) (rest : Text) : Build String := do
  match handle with
  | none => return String.ofList rest
  | some handle =>
    match (← get).handles.lookup handle with
    | some meaning => return String.ofList (meaning ++ rest)
    | none => fail "found undefined tag handle"

/-- The anchor before a node, if one is next. -/
def readAnchor : Build (Option Text) := do
  match ← peek with
  | .anchor name =>
    advance
    return some name
  | _ => return none

/-- The tag before a node, if one is next, with its handle not yet looked up. -/
def readTag : Build (Option (Option Text × Text)) := do
  match ← peek with
  | .tag handle rest =>
    advance
    return some (handle, rest)
  | _ => return none

/-- What stands before a node. -/
structure Properties where
  anchor : Option Text
  tag : Option String

/-- The anchor and the tag before a node, in either order. -/
def readProperties : Build Properties := do
  let first ← readAnchor
  let tag ← readTag
  let anchor ← if first.isNone && tag.isSome then readAnchor else pure first
  match tag with
  | some (handle, rest) => return ⟨anchor, some (← resolveTag handle rest)⟩
  | none => return ⟨anchor, none⟩

/-- The tag that says something about its node: a lone exclamation mark does not. -/
def Properties.meaning (properties : Properties) : Option String :=
  properties.tag.filter (· != "!")

/-- The kind of a collection. -/
def Properties.kind (properties : Properties) (default : Kind) : Kind :=
  (properties.meaning.map Kind.ofTag).getD default

/-- The kind of a scalar. With a lone exclamation mark for a tag the form decides even of a quoted one. -/
def Properties.scalarKind (properties : Properties) (plain : Bool) (text : Text) : Kind :=
  properties.kind (if plain || properties.tag.isSome then Kind.ofForm text else .text)

/-- Adds a node and puts its anchor on it. Every anchor has its own name. -/
def addNode (anchor : Option Text) (node : Node) : Build Nat := do
  let builder ← get
  let number := builder.graph.size
  let anchors ←
    match anchor with
    | some name =>
      if (builder.anchors.lookup name).isSome then throw (.malformed .references "found duplicate anchor")
      else pure ((name, number) :: builder.anchors)
    | none => pure builder.anchors
  set { builder with graph := builder.graph.push node, anchors }
  return number

/-- Gives a node that has been added its content. -/
def setContent (number : Nat) (content : Content) : Build Unit :=
  modify fun builder =>
    { builder with graph := builder.graph.modify number fun node => { node with content } }

/-- Adds a scalar that is not there. -/
def addEmpty : Build Nat :=
  addNode none ⟨.null, .scalar []⟩

/-- Builds what stands inside a collection. -/
def inside {α : Type} (build : Build α) : Build α := do
  if (← get).limit ≤ (← get).depth then throw .tooDeep
  else
    modify fun builder => { builder with depth := builder.depth + 1 }
    let content ← build
    modify fun builder => { builder with depth := builder.depth - 1 }
    return content

/-- Adds a sequence; its node is there before its items are. -/
def addSequence (properties : Properties) (readItems : Build (List Nat)) : Build Nat := do
  let number ← addNode properties.anchor ⟨properties.kind .list, .sequence []⟩
  setContent number (.sequence (← inside readItems))
  return number

/-- Adds a mapping; its node is there before its entries are. -/
def addMapping (properties : Properties) (readEntries : Build (List (Nat × Nat))) : Build Nat := do
  let number ← addNode properties.anchor ⟨properties.kind .map, .mapping []⟩
  setContent number (.mapping (← inside readEntries))
  return number

/-- What kind of node may stand at a place. -/
structure Place where
  /-- Block collections are allowed. -/
  block : Bool
  /-- So is a sequence that is not indented. -/
  indentless : Bool

/-- The tokens that end an entry without a node. -/
def blockSequenceStops : List Token := [.blockEntry, .blockEnd]
def indentlessStops : List Token := [.blockEntry, .key, .value, .blockEnd]
def blockMappingStops : List Token := [.key, .value, .blockEnd]

mutual

/-- Builds the node at the front of the tokens. The bound falls with every step. -/
def buildNode (place : Place) : Nat → Build Nat
  | 0 => fail "too long"
  | bound + 1 => do
    match ← peek with
    | .reference name =>
      advance
      match (← get).anchors.lookup name with
      | some number => return number
      | none => throw (.malformed .references "found undefined alias")
    | _ =>
      let properties ← readProperties
      let token ← peek
      if place.indentless && token == .blockEntry then addSequence properties (buildIndentless bound)
      else if place.block && token == .blockSequence then
        addSequence properties (do advance; buildBlockSequence bound)
      else if place.block && token == .blockMapping then
        addMapping properties (do advance; buildBlockMapping bound)
      else
        match token with
        | .scalar plain text =>
          advance
          addNode properties.anchor ⟨properties.scalarKind plain text, .scalar text⟩
        | .flowSequence => addSequence properties (do advance; buildFlowSequence true bound)
        | .flowMapping => addMapping properties (do advance; buildFlowMapping true bound)
        | _ =>
          if properties.anchor.isSome || properties.tag.isSome then
            addNode properties.anchor ⟨properties.scalarKind true [], .scalar []⟩
          else fail "expected the node content"

/-- Builds a node unless one of the given tokens tells that there is none. -/
def buildUnless (place : Place) (stops : List Token) : Nat → Build Nat
  | 0 => fail "too long"
  | bound + 1 => do if ← sees stops then addEmpty else buildNode place bound

/-- The items of an indented sequence, up to and with its end. -/
def buildBlockSequence : Nat → Build (List Nat)
  | 0 => fail "too long"
  | bound + 1 => do
    if ← accept .blockEntry then
      let item ← buildUnless ⟨true, false⟩ blockSequenceStops bound
      return item :: (← buildBlockSequence bound)
    else if ← accept .blockEnd then return []
    else fail "expected <block end>"

/-- The items of a sequence that stands at the indentation of its key. -/
def buildIndentless : Nat → Build (List Nat)
  | 0 => fail "too long"
  | bound + 1 => do
    if ← accept .blockEntry then
      let item ← buildUnless ⟨true, false⟩ indentlessStops bound
      return item :: (← buildIndentless bound)
    else return []

/-- The entries of an indented mapping, up to and with its end. -/
def buildBlockMapping : Nat → Build (List (Nat × Nat))
  | 0 => fail "too long"
  | bound + 1 => do
    if ← accept .key then
      let key ← buildUnless ⟨true, true⟩ blockMappingStops bound
      let value ← buildValue ⟨true, true⟩ blockMappingStops bound
      return (key, value) :: (← buildBlockMapping bound)
    else if ← accept .blockEnd then return []
    else fail "expected <block end>"

/-- The value of an entry, which is empty if no colon stands before it. -/
def buildValue (place : Place) (stops : List Token) : Nat → Build Nat
  | 0 => fail "too long"
  | bound + 1 => do if ← accept .value then buildUnless place stops bound else addEmpty

/-- The items of a sequence in brackets, up to and with the closing one. An entry among them is a mapping of its
own. -/
def buildFlowSequence (first : Bool) : Nat → Build (List Nat)
  | 0 => fail "too long"
  | bound + 1 => do
    if ← accept .flowSequenceEnd then return []
    else if ← divided first then
      if ← accept .flowSequenceEnd then return []
      else
        let item ←
          if ← sees [.key] then addMapping ⟨none, none⟩ (buildFlowPair bound)
          else buildNode ⟨false, false⟩ bound
        return item :: (← buildFlowSequence false bound)
    else fail "expected ',' or ']'"

/-- The only entry of a mapping that is an item of a sequence in brackets. -/
def buildFlowPair : Nat → Build (List (Nat × Nat))
  | 0 => fail "too long"
  | bound + 1 => do
    advance
    let key ← buildUnless ⟨false, false⟩ [.value, .flowEntry, .flowSequenceEnd] bound
    let value ← buildValue ⟨false, false⟩ [.flowEntry, .flowSequenceEnd] bound
    return [(key, value)]

/-- The entries of a mapping in braces, up to and with the closing one. -/
def buildFlowMapping (first : Bool) : Nat → Build (List (Nat × Nat))
  | 0 => fail "too long"
  | bound + 1 => do
    if ← accept .flowMappingEnd then return []
    else if ← divided first then
      if ← accept .flowMappingEnd then return []
      else
        let entry ← buildFlowEntry bound
        return entry :: (← buildFlowMapping false bound)
    else fail "expected ',' or a closing brace"

/-- One entry of a mapping in braces. -/
def buildFlowEntry : Nat → Build (Nat × Nat)
  | 0 => fail "too long"
  | bound + 1 => do
    if ← accept .key then
      let key ← buildUnless ⟨false, false⟩ [.value, .flowEntry, .flowMappingEnd] bound
      let value ← buildValue ⟨false, false⟩ [.flowEntry, .flowMappingEnd] bound
      return (key, value)
    else
      let key ← buildNode ⟨false, false⟩ bound
      return (key, ← addEmpty)

end

/-- What the directives before a document say. -/
structure Preamble where
  hasVersion : Bool := false
  handles : Handles := []

/-- Takes one more directive. -/
def Preamble.add (preamble : Preamble) : Directive → Build Preamble
  | .version major =>
    if preamble.hasVersion then fail "found duplicate YAML directive"
    else if major != 1 then fail "found incompatible YAML document"
    else return { preamble with hasVersion := true }
  | .tag handle meaning =>
    if (preamble.handles.lookup handle).isSome then fail "duplicate tag handle"
    else return { preamble with handles := (handle, meaning) :: preamble.handles }
  | .other => return preamble

/-- The directives before a document. The bound is the number of tokens. -/
def readDirectives : Nat → Preamble → Build Preamble
  | 0, preamble => return preamble
  | bound + 1, preamble => do
    match ← peek with
    | .directive directive =>
      advance
      readDirectives bound (← preamble.add directive)
    | _ => return preamble

/-- The directives of a document and the mark of its start. -/
def readStart : Build Preamble := do
  let preamble ← readDirectives (← get).tokens.length {}
  if ← accept .documentStart then return preamble else fail "expected '<document start>'"

/-- The number of steps that building a node may take. -/
def stepLimit : Build Nat := do
  return 4 * (← get).tokens.length + 16

/-- The document after its start, which may hold nothing. -/
def buildMarked : Build Nat := do
  match ← peek with
  | .directive _ | .documentStart | .documentEnd | .endOfText => addEmpty
  | _ => buildNode ⟨true, false⟩ (← stepLimit)

/-- Drops the marks at the end of a document. The bound is the number of tokens. -/
def dropDocumentEnds : Nat → Build Unit
  | 0 => return ()
  | bound + 1 => do if ← accept .documentEnd then dropDocumentEnds bound

/-- Checks that nothing follows a document but its end marks. -/
def finish : Build Unit := do
  dropDocumentEnds (← get).tokens.length
  if ← sees [.endOfText] then return ()
  else
    let _ ← readStart
    throw (.malformed .references "expected a single document in the stream")

/-- The root of the only document that the tokens hold, if they hold one. -/
def buildDocument : Build (Option Nat) := do
  match ← peek with
  | .endOfText => return none
  | .directive _ | .documentStart =>
    let preamble ← readStart
    modify fun builder => { builder with handles := preamble.handles ++ defaultHandles }
    let root ← buildMarked
    finish
    return some root
  | _ =>
    let root ← buildNode ⟨true, false⟩ (← stepLimit)
    finish
    return some root

end Build

/-- The only document that tokens hold, if they hold one. -/
def Document.ofTokens (limit : Nat) (tokens : List Token) : Except Error (Option Document) := do
  let (root, builder) ← Build.buildDocument.run { limit, tokens }
  return root.map fun root => ⟨builder.graph, root⟩

end ImportOrder.Yaml

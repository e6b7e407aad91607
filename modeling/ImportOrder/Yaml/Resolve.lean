import ImportOrder.Value.Key
import ImportOrder.Yaml.Merge

/-!
# The values of YAML documents

The nodes of a document are looked at breadth first from its root. A scalar gets its value when it is first met,
and a collection is opened after all that were met before it; which fault of a text is found depends on that
order. The values of collections are put together at the end.
-/

namespace ImportOrder.Yaml

/-- What a node was found to stand for, with what it holds given by number. Keys are values at once. -/
inductive Part where
  | atom (value : Value)
  | list (items : List Nat)
  | map (entries : List (Value × Nat))
  | pairs (entries : List (Nat × Nat))
  | set (members : List Value)

/-- The state of looking at nodes: the graph, what was found, and the collections in the order in which they
were met. -/
structure Survey where
  graph : Graph
  parts : Array (Option Part)
  met : Array Nat := #[]

/-- A step of looking at nodes. -/
abbrev Look := StateT Survey (Except Error)

namespace Look

/-- Refuses a node. -/
def fail {α : Type} (reason : String) : Look α :=
  throw (.malformed .values reason)

/-- The text of a node that is to be a scalar. For a mapping it is that of its default value. The bound falls from
mapping to mapping. -/
def textOf (graph : Graph) : Nat → Nat → Except Error Text
  | 0, _ => .error (.malformed .values "expected a scalar node")
  | bound + 1, number =>
    match graph.contentOf number with
    | .scalar text => .ok text
    | .sequence _ => .error (.malformed .values "expected a scalar node")
    | .mapping entries =>
      match entries.find? fun (key, _) => graph.kindOf key = .defaultValue with
      | some (_, value) => textOf graph bound value
      | none => .error (.malformed .values "expected a scalar node")

/-- The value of a node that is to be a scalar. -/
def atomOf (graph : Graph) (number : Nat) : Except Error Value := do
  let text ← textOf graph (graph.size + 1) number
  match graph.kindOf number, graph.contentOf number with
  | .timestamp, .mapping _ => throw (.scalar .momentMapping)
  | kind, _ => kind.scalarValue text

/-- Writes down what a node stands for. -/
def record (number : Nat) (part : Part) : Look Unit :=
  modify fun survey => { survey with parts := survey.parts.setIfInBounds number (some part) }

/-- What a node was found to stand for. -/
def found? (number : Nat) : Look (Option Part) := do
  return ((← get).parts[number]?).join

/-- Meets a node: a scalar gets its value, a collection its turn. -/
def meet (number : Nat) : Look Unit := do
  if (← found? number).isSome then return ()
  else
    let graph := (← get).graph
    if (graph.kindOf number).isCollection then
      record number (.list [])
      modify fun survey => { survey with met := survey.met.push number }
    else record number (.atom (← atomOf graph number))

/-- The value of a key, which cannot be a collection. -/
def keyOf (number : Nat) : Look Value := do
  meet number
  match ← found? number with
  | some (.atom value) => return value
  | _ => fail "found unhashable key"

/-- The entries of a mapping after all merging; of entries with one key the last gives the value. -/
def openMapping (number : Nat) : Look (List (Value × Nat)) := do
  let graph ← ((← get).graph.merge number : Except Error Graph)
  modify fun survey => { survey with graph }
  (graph.entriesOf number).foldlM
    (fun entries (key, value) => do
      let key ← keyOf key
      meet value
      return Value.setAt key value entries)
    []

/-- The only entry of a mapping that is an item of a list of entries. -/
def openPair (number : Nat) : Look (Nat × Nat) := do
  match (← get).graph.contentOf number with
  | .mapping [(key, value)] =>
    meet key
    meet value
    return (key, value)
  | _ => fail "expected a mapping of length 1"

/-- Opens a collection. -/
def openNode (number : Nat) : Look Unit := do
  let graph := (← get).graph
  match graph.kindOf number, graph.contentOf number with
  | .list, .sequence items =>
    items.forM meet
    record number (.list items)
  | .map, .mapping _ => record number (.map (← openMapping number))
  | .set, .mapping _ => record number (.set ((← openMapping number).map Prod.fst))
  | .orderedMap, .sequence items | .pairs, .sequence items =>
    record number (.pairs (← items.mapM openPair))
  | _, _ => fail "expected a node of another kind"

/-- Opens the collections in the order in which they were met, from a place in that order on. Each is met once,
so the number of nodes bounds the recursion. -/
def openAll : Nat → Nat → Look Unit
  | 0, _ => return ()
  | bound + 1, place => do
    match (← get).met[place]? with
    | none => return ()
    | some number =>
      openNode number
      openAll bound (place + 1)

end Look

/-- What the nodes of a document stand for, by number. -/
def Document.survey (document : Document) : Except Error (Array (Option Part)) := do
  let size := document.graph.size
  let look : Look Unit := do
    Look.meet document.root
    Look.openAll (size + 1) 0
  let (_, survey) ← look.run { graph := document.graph, parts := Array.replicate size none }
  return survey.parts

namespace Part

/-- The value of a node whose parts have values. -/
def value? (valueOf : Nat → Option Value) : Part → Option Value
  | atom value => some value
  | list items => do return .list (← items.mapM valueOf)
  | map entries => do
    return .map (← entries.mapM fun ((key, number) : Value × Nat) => do return (key, ← valueOf number))
  | pairs entries => do
    return .list (← entries.mapM fun ((first, second) : Nat × Nat) => do
      return .pair (← valueOf first) (← valueOf second))
  | set members => some (Value.setOf members)

/-- How a collection is shown inside itself. -/
def shape : Part → Shape
  | map _ => .map
  | _ => .list

end Part

/-- The values of nodes, as far as they are known. -/
abbrev Values := Array (Option Value)

/-- One more node with a value, if all that it holds have theirs. -/
def Values.extend (parts : Array (Option Part)) (number : Nat) (values : Values) : Values :=
  match values[number]?.join, parts[number]?.join with
  | none, some part => values.setIfInBounds number (part.value? fun n => values[n]?.join)
  | _, _ => values

/-- The values of all nodes that no cycle can be reached from. Numbers grow inwards, so one round is enough but for
aliases; rounds are repeated as long as they bring something new. -/
def Values.settle (parts : Array (Option Part)) : Nat → Values → Values
  | 0, values => values
  | rounds + 1, values =>
    let known (values : Values) : Nat := values.countP Option.isSome
    let next := (List.range parts.size).foldr (Values.extend parts) values
    if known next = known values then next else Values.settle parts rounds next

/-- A collection on the way from the root: a node, or one of the pairs of a node. -/
structure Ancestor where
  number : Nat
  pair : Option Nat := none
deriving DecidableEq

/-- The level from which on values are shown. -/
def shownLevel : Nat := 2

/-- The ancestors of what a collection at a level holds; those that are never shown do not count. -/
def Ancestor.extend (level : Nat) (ancestor : Ancestor) (ancestors : List Ancestor) : List Ancestor :=
  if shownLevel ≤ level then ancestor :: ancestors else ancestors

/-- The value of a node that may hold itself, written out until it is met again below a place where it is shown.
The number of nodes bounds the recursion. -/
def unroll (parts : Array (Option Part)) (values : Values) :
    Nat → Nat → List Ancestor → Nat → Value
  | 0, _, _, _ => .null
  | bound + 1, level, ancestors, number =>
    match values[number]?.join, parts[number]?.join with
    | some value, _ => value
    | none, none => .null
    | none, some part =>
      if ancestors.contains ⟨number, none⟩ then .inside part.shape
      else
        let ancestors := Ancestor.extend level ⟨number, none⟩ ancestors
        match part with
        | .atom value => value
        | .set members => Value.setOf members
        | .list items => .list (items.map (unroll parts values bound (level + 1) ancestors))
        | .map entries =>
          .map (entries.map fun (key, item) => (key, unroll parts values bound (level + 1) ancestors item))
        | .pairs entries =>
          .list (entries.zipIdx.map fun ((first, second), place) =>
            if ancestors.contains ⟨number, some place⟩ then .inside .pair
            else
              let ancestors := Ancestor.extend (level + 1) ⟨number, some place⟩ ancestors
              .pair (unroll parts values bound (level + 2) ancestors first)
                (unroll parts values bound (level + 2) ancestors second))

/-- The value of a document. -/
def Document.toValue (document : Document) : Except Error Value := do
  let parts ← document.survey
  let values := Values.settle parts parts.size (Array.replicate parts.size none)
  return unroll parts values (parts.size + 3) 0 [] document.root

/-- The value of a YAML text in which at most `limit` collections stand inside each other; a text without a document
is null. -/
def parse (limit : Nat) (t : Text) : Except Error Value := do
  match ← Document.ofTokens limit (Token.scan t) with
  | none => return .null
  | some document => document.toValue

end ImportOrder.Yaml

import ImportOrder.Yaml.Graph

/-!
# Merged mappings

A mapping with a merge key takes in the entries of other mappings before its own, after these have taken in what
they merge. Of a list of mappings the first counts most, so its entries come last. What has been merged is
written into the graph, so a mapping is merged once, whoever asks first.
-/

namespace ImportOrder.Yaml

namespace Graph

/-- The kind of a node. -/
def kindOf (graph : Graph) (number : Nat) : Kind :=
  (graph[number]?.map Node.kind).getD .unknown

/-- What a node is made of. -/
def contentOf (graph : Graph) (number : Nat) : Content :=
  (graph[number]?.map Node.content).getD (.scalar [])

/-- The entries of a mapping. -/
def entriesOf (graph : Graph) (number : Nat) : List (Nat × Nat) :=
  match graph.contentOf number with
  | .mapping entries => entries
  | _ => []

/-- Gives a mapping other entries. -/
def setEntries (graph : Graph) (number : Nat) (entries : List (Nat × Nat)) : Graph :=
  graph.modify number fun node => { node with content := .mapping entries }

/-- The value of the first merge key among entries, and the entries without it. -/
def takeMerge? (graph : Graph) : List (Nat × Nat) → Option (Nat × List (Nat × Nat))
  | [] => none
  | (key, value) :: rest =>
    if graph.kindOf key = .merge then some (value, rest)
    else (graph.takeMerge? rest).map fun (merged, others) => (merged, (key, value) :: others)

/-- Makes text of the keys that mark a default value. -/
def plainKeys (graph : Graph) (entries : List (Nat × Nat)) : Graph :=
  entries.foldl
    (fun graph (key, _) =>
      if graph.kindOf key = .defaultValue then graph.modify key fun node => { node with kind := .text }
      else graph)
    graph

/-- Merges into a mapping what its merge keys name, after `merged`, which it has taken in already. A merge key
is gone before the mapping that it names is looked at, so the number of entries bounds the recursion. -/
def mergeInto : Nat → List (Nat × Nat) → Nat → Graph → Except Error Graph
  | 0, _, _, graph => .ok graph
  | bound + 1, merged, number, graph =>
    match graph.takeMerge? (graph.entriesOf number) with
    | none =>
      let own := graph.entriesOf number
      .ok ((graph.plainKeys own).setEntries number (merged ++ own))
    | some (value, others) => do
      let graph := graph.setEntries number others
      match graph.contentOf value with
      | .mapping _ =>
        let graph ← mergeInto bound [] value graph
        mergeInto bound (merged ++ graph.entriesOf value) number graph
      | .sequence items =>
        let (graph, parts) ← items.foldlM
          (fun (graph, parts) item =>
            match Graph.contentOf graph item with
            | .mapping _ => do
              let graph ← mergeInto bound [] item graph
              return (graph, graph.entriesOf item :: parts)
            | _ => throw (.malformed .values "expected a mapping for merging"))
          (graph, ([] : List (List (Nat × Nat))))
        mergeInto bound (merged ++ parts.flatten) number graph
      | .scalar _ => throw (.malformed .values "expected a mapping or list of mappings for merging")

/-- The number of entries of all mappings. -/
def entryCount (graph : Graph) : Nat :=
  graph.foldl
    (fun count node =>
      match node.content with
      | .mapping entries => count + entries.length
      | _ => count)
    0

/-- Merges into a mapping what its merge keys name. -/
def merge (graph : Graph) (number : Nat) : Except Error Graph :=
  mergeInto (graph.entryCount + 2) [] number graph

end Graph

end ImportOrder.Yaml

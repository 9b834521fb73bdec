import ByteMachine.Yaml.Node

/-!
Merging: a mapping takes in the entries of other mappings, and they stand in front of its own ones.
What a mapping has taken in stays in the graph, so that others that take in the same mapping find
it there.  A mapping may even take in itself: then it finds the entries that it has so far.
-/

namespace ByteMachine.Yaml

abbrev Entries := List (Nat × Nat)

namespace Graph

def node? (graph : Graph) (number : Nat) : Option Node := graph.nodes[number]?

def tagOf (graph : Graph) (number : Nat) : Tag := ((graph.node? number).map Node.tag).getD .unknown

def contentOf (graph : Graph) (number : Nat) : Content :=
  ((graph.node? number).map Node.content).getD (.scalar "")

def entriesOf? (graph : Graph) (number : Nat) : Option Entries :=
  match graph.contentOf number with
  | .mapping entries => some entries
  | _ => none

def setEntries (graph : Graph) (number : Nat) (entries : Entries) : Graph :=
  { graph with
    nodes := graph.nodes.modify number fun node => { node with content := .mapping entries } }

/-- A key that would give a mapping a value as a scalar becomes a text like any other. -/
def settleKey (graph : Graph) (key : Nat) : Graph :=
  { graph with
    nodes := graph.nodes.modify key fun node =>
      if node.tag = .equals then { node with tag := .text } else node }

def splitMerge? (graph : Graph) : Entries → Option (Nat × Entries)
  | [] => none
  | (key, value) :: rest =>
    if graph.tagOf key = .merge then some (value, rest)
    else (graph.splitMerge? rest).map fun (found, others) => (found, (key, value) :: others)

def mergeCount (graph : Graph) : Nat :=
  graph.nodes.foldl (fun count node =>
    match node.content with
    | .mapping entries => count + entries.countP fun entry => graph.tagOf entry.1 = .merge
    | _ => count) 0

end Graph

abbrev Edit := StateT Graph (Except Failure)

namespace Edit

/-- The entries that a merged value gives: those of a mapping, or those of a sequence of mappings,
the later ones first. -/
def mergedEntries (expand : Nat → Edit Entries) (value : Nat) : Edit Entries := do
  match (← get).contentOf value with
  | .mapping _ => expand value
  | .sequence items =>
    let parts ← items.mapM expand
    return parts.reverse.flatten
  | .scalar _ => throw .malformed

/-- Takes in all that a mapping merges, and gives its entries.  Every merge key is looked at once,
so that their number bounds the work. -/
def expand : Nat → Nat → Edit Entries
  | 0, _ => throw .malformed
  | fuel + 1, number => do
    match (← get).entriesOf? number with
    | none => throw .malformed
    | some entries =>
      match (← get).splitMerge? entries with
      | none =>
        modify fun graph => entries.foldl (fun graph entry => graph.settleKey entry.1) graph
        return entries
      | some (value, others) =>
        modify fun graph => graph.setEntries number others
        let merged ← mergedEntries (expand fuel) value
        let own ← expand fuel number
        modify fun graph => graph.setEntries number (merged ++ own)
        return merged ++ own

end Edit

end ByteMachine.Yaml

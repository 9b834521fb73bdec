import ByteMachine.Config.Document
import ByteMachine.Yaml.Meaning
import ByteMachine.Yaml.Merge

/-!
Documents: what the nodes of a text stand for.  Scalars are read as soon as they are met, but the
parts of a collection only after all collections that were met before it: of two nodes that cannot
be read, the one nearer to the root is reported.
-/

namespace ByteMachine.Yaml

def Graph.textOf (graph : Graph) : Nat → Nat → Except Failure String
  | 0, _ => .error .tooDeep
  | fuel + 1, number =>
    match graph.contentOf number with
    | .scalar text => .ok text
    | .sequence _ => .error .malformed
    | .mapping entries =>
      match entries.find? fun entry => graph.tagOf entry.1 = .equals with
      | some (_, value) => graph.textOf fuel value
      | none => .error .malformed

structure Builder where
  graph : Graph
  objects : Array (Option Object)
  waiting : List Nat := []

abbrev Build := StateT Builder (Except Failure)

namespace Build

def setObject (number : Nat) (object : Object) : Build Unit :=
  modify fun builder => { builder with
    objects := builder.objects.setIfInBounds number (some object) }

def awaitParts (number : Nat) : Build Unit :=
  modify fun builder => { builder with waiting := builder.waiting ++ [number] }

/-- The object of a node, made when it is first asked for. -/
def make (number : Nat) : Build Object := do
  let builder ← get
  match builder.objects[number]?.join with
  | some object => return object
  | none =>
    let graph := builder.graph
    let object ←
      match graph.tagOf number with
      | .sequence => do
        awaitParts number
        pure (Object.list [])
      | .mapping => do
        awaitParts number
        pure (Object.mapping [])
      | .merge | .equals | .unknown => throw .malformed
      | tag => do
        let text ← graph.textOf graph.nodes.size number
        pure (Object.scalar (← tag.read number text))
    setObject number object
    return object

/-- Sets an entry.  Only scalars can be keys; of two entries with the same key the later counts. -/
def addEntry (known : List (Value × Nat)) (entry : Nat × Nat) : Build (List (Value × Nat)) := do
  match ← make entry.1 with
  | .scalar key =>
    let _ ← make entry.2
    return Value.setKey known key entry.2
  | _ => throw .malformed

def expandMapping (number : Nat) : Build Entries := do
  let builder ← get
  let (entries, graph) ← (Edit.expand (builder.graph.mergeCount + 1) number).run builder.graph
  set { builder with graph }
  return entries

def fill (number : Nat) : Build Unit := do
  let graph := (← get).graph
  match graph.tagOf number, graph.contentOf number with
  | .sequence, .sequence items =>
    items.forM fun item => discard (make item)
    setObject number (.list items)
  | .mapping, .mapping _ =>
    let entries ← expandMapping number
    setObject number (.mapping (← entries.foldlM addEntry []))
  | _, _ => throw .malformed

def fillWaiting : Nat → Build Unit
  | 0 => return ()
  | fuel + 1 => do
    let builder ← get
    match builder.waiting with
    | [] => return ()
    | number :: waiting =>
      set { builder with waiting }
      fill number
      fillWaiting fuel

def makeAll (root count : Nat) : Build Unit := do
  let _ ← make root
  fillWaiting count

end Build

def documentOf (graph : Graph) : Except Failure Document :=
  match graph.root with
  | none => .ok ⟨#[.scalar .null], 0⟩
  | some root => do
    let count := graph.nodes.size
    let objects := Array.replicate count none
    let (_, builder) ← (Build.makeAll root count).run { graph, objects }
    return ⟨builder.objects.map fun object => object.getD (.scalar .null), root⟩

def evenLines : List Char → List Char
  | [] => []
  | '\r' :: '\n' :: rest => '\n' :: evenLines rest
  | '\r' :: rest => '\n' :: evenLines rest
  | c :: rest => c :: evenLines rest

def readText (text : String) : Except Failure Document := do
  let (tokens, stop) := Token.ofText (evenLines text.toList)
  documentOf (← Graph.ofTokens tokens stop)

def Failure.reported : Failure → ReadFailure
  | .malformed => .malformed
  | failure => .other failure.name failure.message

def reader : DocumentReader := fun content =>
  match String.fromUTF8? ⟨content.toArray⟩ with
  | none => .error .undecodable
  | some text => (readText (Text.ofString text)).mapError Failure.reported

end ByteMachine.Yaml

import ByteMachine.Yaml.Tag
import ByteMachine.Yaml.Token

/-!
Nodes: the graph that the tokens of a document stand for.  The parts of a node are given by their
numbers, so that a node can be a part of several others, and even of itself.  A text holds at most
one document.
-/

namespace ByteMachine.Yaml

inductive Content where
  | scalar (text : String)
  | sequence (items : List Nat)
  | mapping (entries : List (Nat × Nat))
  deriving DecidableEq, Repr

structure Node where
  tag : Tag
  content : Content
  deriving DecidableEq, Repr

/-- The nodes of a text, and which of them stands for the document, if there is one. -/
structure Graph where
  nodes : Array Node
  root : Option Nat

abbrev Handles := List (String × String)

def standardHandles : Handles := [("!", "!"), ("!!", standardStem)]

structure Properties where
  anchor : Option String := none
  tag : Option String := none

def emptyTag : String := "!"

def Properties.tagOr (properties : Properties) (usual : Tag) : Tag :=
  match properties.tag with
  | none => usual
  | some name => if name = emptyTag then usual else .ofName name

/-- Without a tag the text of a plain scalar decides; all other scalars are texts. -/
def Properties.scalarTag (properties : Properties) (plain : Bool) (text : String) : Tag :=
  if plain ∨ properties.tag = some emptyTag then properties.tagOr (.ofText text)
  else properties.tagOr .text

/-- Collections may not be nested deeper than this. -/
def deepest : Nat := 488

structure Reader where
  tokens : List Token
  stop : Option Failure
  nodes : Array Node := #[]
  anchors : List (String × Nat) := []
  depth : Nat := 0

abbrev Read := StateT Reader (Except Failure)

namespace Read

def refuse {α : Type} : Read α := throw .malformed

def peek : Read (Option Token) := do
  let reader ← get
  match reader.tokens with
  | token :: _ => return some token
  | [] =>
    match reader.stop with
    | none => return none
    | some failure => throw failure

def advance : Read Unit := modify fun reader => { reader with tokens := reader.tokens.tail }

def accept (token : Token) : Read Bool := do
  if (← peek) = some token then
    advance
    return true
  else return false

def nextIn (tokens : List Token) : Read Bool := return (← peek).any tokens.contains

def addNode (anchor : Option String) (node : Node) : Read Nat := do
  let reader ← get
  let number := reader.nodes.size
  match anchor with
  | none => set { reader with nodes := reader.nodes.push node }
  | some name =>
    if (reader.anchors.lookup name).isSome then refuse
    else
      set { reader with
        nodes := reader.nodes.push node
        anchors := (name, number) :: reader.anchors }
  return number

def addEmpty : Read Nat := addNode none ⟨.null, .scalar ""⟩

def addCollection (anchor : Option String) (tag : Tag) (parts : Read Content) : Read Nat := do
  let number ← addNode anchor ⟨tag, .sequence []⟩
  if deepest ≤ (← get).depth then throw .tooDeep
  else
    modify fun reader => { reader with depth := reader.depth + 1 }
    let content ← parts
    modify fun reader => { reader with
      depth := reader.depth - 1
      nodes := reader.nodes.setIfInBounds number ⟨tag, content⟩ }
    return number

def readAnchor : Read (Option String) := do
  match ← peek with
  | some (.anchor name) =>
    advance
    return some name
  | _ => return none

def readTag : Read (Option (Option String × String)) := do
  match ← peek with
  | some (.tag handle suffix) =>
    advance
    return some (handle, suffix)
  | _ => return none

def resolveTag (handles : Handles) : Option String × String → Read String
  | (none, suffix) => return suffix
  | (some handle, suffix) =>
    match handles.lookup handle with
    | some stem => return stem ++ suffix
    | none => refuse

def readProperties (handles : Handles) : Read Properties := do
  let first ← readAnchor
  let tag ← readTag
  let anchor ← if first.isNone ∧ tag.isSome then readAnchor else pure first
  match tag with
  | none => return ⟨anchor, none⟩
  | some tag => return ⟨anchor, some (← resolveTag handles tag)⟩

mutual

/-- A node; blocks are possible only outside flow collections, and a sequence of entries without an
indentation of its own only inside a mapping. -/
def readNode (handles : Handles) (block indentless : Bool) : Nat → Read Nat
  | 0 => refuse
  | fuel + 1 => do
    match ← peek with
    | some (.reference name) =>
      advance
      match (← get).anchors.lookup name with
      | some number => return number
      | none => refuse
    | _ =>
      let properties ← readProperties handles
      let anchor := properties.anchor
      match ← peek with
      | some (.scalar text plain) =>
        advance
        addNode anchor
          ⟨properties.scalarTag (plain && properties.tag.isNone) text, .scalar text⟩
      | some .flowSequence =>
        advance
        addCollection anchor (properties.tagOr .sequence) do
          return .sequence (← readFlowItems handles true fuel)
      | some .flowMapping =>
        advance
        addCollection anchor (properties.tagOr .mapping) do
          return .mapping (← readFlowEntries handles true fuel)
      | next =>
        if block && next = some .blockSequence then
          advance
          addCollection anchor (properties.tagOr .sequence) do
            let items ← readBlockItems handles fuel
            if ← accept .blockEnd then return .sequence items else refuse
        else if block && next = some .blockMapping then
          advance
          addCollection anchor (properties.tagOr .mapping) do
            return .mapping (← readBlockEntries handles fuel)
        else if indentless && next = some .blockEntry then
          addCollection anchor (properties.tagOr .sequence) do
            return .sequence (← readIndentlessItems handles fuel)
        else if properties.anchor.isSome || properties.tag.isSome then
          addNode anchor ⟨properties.scalarTag properties.tag.isNone "", .scalar ""⟩
        else refuse

def readNodeUnless (handles : Handles) (block indentless : Bool) (ends : List Token) :
    Nat → Read Nat
  | 0 => refuse
  | fuel + 1 => do
    if ← nextIn ends then addEmpty else readNode handles block indentless fuel

def readBlockItems (handles : Handles) : Nat → Read (List Nat)
  | 0 => refuse
  | fuel + 1 => do
    if ← accept .blockEntry then
      let item ← readNodeUnless handles true false [.blockEntry, .blockEnd] fuel
      return item :: (← readBlockItems handles fuel)
    else return []

def readIndentlessItems (handles : Handles) : Nat → Read (List Nat)
  | 0 => refuse
  | fuel + 1 => do
    if ← accept .blockEntry then
      let item ←
        readNodeUnless handles true false [.blockEntry, .key, .value, .blockEnd] fuel
      return item :: (← readIndentlessItems handles fuel)
    else return []

def readBlockEntries (handles : Handles) : Nat → Read (List (Nat × Nat))
  | 0 => refuse
  | fuel + 1 => do
    if ← accept .key then
      let key ← readNodeUnless handles true true [.key, .value, .blockEnd] fuel
      let value ←
        if ← accept .value then
          readNodeUnless handles true true [.key, .value, .blockEnd] fuel
        else addEmpty
      return (key, value) :: (← readBlockEntries handles fuel)
    else if ← accept .blockEnd then return []
    else refuse

/-- The value of an entry in a flow collection, up to a comma or the end of the collection. -/
def readFlowValue (handles : Handles) (closing : Token) : Nat → Read Nat
  | 0 => refuse
  | fuel + 1 => do
    if ← accept .value then readNodeUnless handles false false [.flowEntry, closing] fuel
    else addEmpty

def readFlowItems (handles : Handles) (first : Bool) : Nat → Read (List Nat)
  | 0 => refuse
  | fuel + 1 => do
    if ← accept .flowSequenceEnd then return []
    else
      let separated ← if first then pure true else accept .flowEntry
      if !separated then refuse
      else if ← accept .key then
        let item ← addCollection none .mapping do
          let key ← readNodeUnless handles false false [.value, .flowEntry, .flowSequenceEnd] fuel
          return .mapping [(key, ← readFlowValue handles .flowSequenceEnd fuel)]
        return item :: (← readFlowItems handles false fuel)
      else if ← accept .flowSequenceEnd then return []
      else
        let item ← readNode handles false false fuel
        return item :: (← readFlowItems handles false fuel)

def readFlowEntries (handles : Handles) (first : Bool) : Nat → Read (List (Nat × Nat))
  | 0 => refuse
  | fuel + 1 => do
    if ← accept .flowMappingEnd then return []
    else
      let separated ← if first then pure true else accept .flowEntry
      if !separated then refuse
      else if ← accept .key then
        let key ← readNodeUnless handles false false [.value, .flowEntry, .flowMappingEnd] fuel
        let value ← readFlowValue handles .flowMappingEnd fuel
        return (key, value) :: (← readFlowEntries handles false fuel)
      else if ← accept .flowMappingEnd then return []
      else
        let key ← readNode handles false false fuel
        return (key, ← addEmpty) :: (← readFlowEntries handles false fuel)

end

structure Directives where
  versioned : Bool := false
  handles : Handles := []

def readDirectives (directives : Directives) : Nat → Read Directives
  | 0 => return directives
  | fuel + 1 => do
    match ← peek with
    | some (.versionDirective major) =>
      advance
      if directives.versioned || major ≠ 1 then refuse
      else readDirectives { directives with versioned := true } fuel
    | some (.tagDirective handle stem) =>
      advance
      if (directives.handles.lookup handle).isSome then refuse
      else
        let handles := directives.handles ++ [(handle, stem)]
        readDirectives { directives with handles } fuel
    | some .otherDirective =>
      advance
      readDirectives directives fuel
    | _ => return directives

def isDirective : Token → Bool
  | .versionDirective _ | .tagDirective .. | .otherDirective => true
  | _ => false

def skipDocumentEnds : Nat → Read Unit
  | 0 => return ()
  | fuel + 1 => do if ← accept .documentEnd then skipDocumentEnds fuel else return ()

def readExplicitDocument (fuel : Nat) : Read (Option Nat) := do
  skipDocumentEnds fuel
  match ← peek with
  | none => return none
  | some _ =>
    let directives ← readDirectives {} fuel
    if ← accept .documentStart then
      let handles := directives.handles ++ standardHandles
      match ← peek with
      | none => return some (← addEmpty)
      | some token =>
        if isDirective token || token = .documentStart || token = .documentEnd then
          return some (← addEmpty)
        else return some (← readNode handles true false fuel)
    else refuse

def readDocument (fuel : Nat) : Read (Option Nat) := do
  match ← peek with
  | none => return none
  | some token =>
    if isDirective token || token = .documentStart then readExplicitDocument fuel
    else return some (← readNode standardHandles true false fuel)

def readText (fuel : Nat) : Read (Option Nat) := do
  let document ← readDocument fuel
  skipDocumentEnds fuel
  match ← peek with
  | none => return document
  | some _ => refuse

end Read

def Graph.ofTokens (tokens : List Token) (stop : Option Failure) : Except Failure Graph := do
  let (root, reader) ← (Read.readText (4 * tokens.length + 8)).run { tokens, stop }
  return ⟨reader.nodes, root⟩

end ByteMachine.Yaml

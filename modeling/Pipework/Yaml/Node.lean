import Pipework.Yaml.Token

/-!
The nodes of a YAML document.

`Node.ofText?` reads a text that holds a single document. Aliases stand for the nodes that they
name. Tags are checked and then left out, since what a scalar means is decided by its reader.
-/

namespace Pipework.Yaml

/-! ## Nodes -/

/-- A node of a document. -/
inductive Node where
  /-- A scalar, and whether it is a plain one. -/
  | scalar (isPlain : Bool) (text : String)
  | sequence (items : List Node)
  | mapping (entries : List (Node × Node))
  /-- An alias inside the node that it names. -/
  | loop
  deriving Repr, Inhabited

/-- The node where none is written. -/
def Node.absent : Node := .scalar true ""

/-! ## Reading tokens -/

/-- The tokens that are left, the anchored nodes, the last one first, and the tag handles that
are declared. -/
structure Composer where
  tokens : List Token
  anchors : List (String × Node)
  handles : List String
  deriving Repr, Inhabited

/-- A step of reading tokens, which may fail. -/
abbrev Compose := StateT Composer Option

namespace Compose

/-- Ends the reading of a malformed document. -/
def fail {α : Type} : Compose α := fun _ => none

/-- The next token. -/
def next? : Compose (Option Token) := do return (← get).tokens.head?

/-- Drops the next token. -/
def skip : Compose Unit := modify fun composer => { composer with tokens := composer.tokens.tail }

/-- Whether the next token is one of some tokens. -/
def nextIs (choices : List Token) : Compose Bool := do
  return (← next?).any choices.contains

/-- Drops a token that has to be the next one. -/
def expect (token : Token) : Compose Unit := do
  if ← nextIs [token] then skip else fail

/-- The node with an anchor. -/
def anchored (name : String) : Compose Node := do
  match (← get).anchors.lookup name with
  | some node => return node
  | none => fail

/-- Declares an anchor whose node is still to be read, and gives its slot. -/
def openAnchor (name : String) : Compose Nat := do
  let slot := (← get).anchors.length
  modify fun composer => { composer with anchors := (name, .loop) :: composer.anchors }
  return slot

/-- Gives an anchor its node. -/
def closeAnchor (slot : Nat) (name : String) (node : Node) : Compose Unit :=
  modify fun composer =>
    { composer with
      anchors := composer.anchors.set (composer.anchors.length - 1 - slot) (name, node) }

/-- Refuses a tag whose handle is not declared. -/
def requireHandle (handle : String) : Compose Unit := do
  if handle ∈ ["", "!", "!!"] || handle ∈ (← get).handles then return () else fail

/-- What stands before a node: its anchor, and whether it has a tag. -/
structure Properties where
  anchor? : Option String
  hasTag : Bool
  deriving Repr, Inhabited

/-- Whether there is an anchor or a tag. -/
def Properties.isSome (properties : Properties) : Bool :=
  properties.anchor?.isSome || properties.hasTag

/-- Reads the anchor that may stand here. -/
def anchor? : Compose (Option String) := do
  match ← next? with
  | some (.anchor name) => skip; return some name
  | _ => return none

/-- Reads the tag that may stand here. -/
def hasTag : Compose Bool := do
  match ← next? with
  | some (.tag handle _) => skip; requireHandle handle; return true
  | _ => return false

/-- Reads an anchor and a tag, in any order. -/
def properties : Compose Properties := do
  match ← anchor? with
  | some name => return ⟨some name, ← hasTag⟩
  | none =>
      if ← hasTag then return ⟨← anchor?, true⟩ else return ⟨none, false⟩

mutual

/-- Reads a node. In a block it may be a block itself; behind a key or a colon it may be a
sequence that is not indented. -/
def node : Nat → Bool → Bool → Compose Node
  | 0, _, _ => fail
  | fuel + 1, isBlock, isIndentless => do
      match ← next? with
      | some (.alias name) => skip; anchored name
      | _ =>
          let before ← properties
          match before.anchor? with
          | none => content fuel isBlock isIndentless before.isSome
          | some name =>
              let slot ← openAnchor name
              let read ← content fuel isBlock isIndentless true
              closeAnchor slot name read
              return read

/-- Reads a node behind its anchor and tag. Nothing need follow them. -/
def content : Nat → Bool → Bool → Bool → Compose Node
  | 0, _, _, _ => fail
  | fuel + 1, isBlock, isIndentless, isMarked => do
      match ← next?, isBlock with
      | some (.scalar isPlain text), _ => skip; return .scalar isPlain text
      | some .flowSequenceStart, _ => skip; return .sequence (← flowItems fuel true)
      | some .flowMappingStart, _ => skip; return .mapping (← flowEntries fuel true)
      | some .blockSequenceStart, true => skip; return .sequence (← blockItems fuel)
      | some .blockMappingStart, true => skip; return .mapping (← blockEntries fuel)
      | some .blockEntry, _ =>
          if isIndentless then return .sequence (← indentlessItems fuel)
          else if isMarked then return .absent
          else fail
      | _, _ => if isMarked then return .absent else fail

/-- Reads a node, unless one of some tokens follows, before which it is absent. -/
def nodeBefore : Nat → Bool → Bool → List Token → Compose Node
  | 0, _, _, _ => fail
  | fuel + 1, isBlock, isIndentless, ends => do
      if ← nextIs ends then return .absent else node fuel isBlock isIndentless

/-- Reads the items of a block sequence. -/
def blockItems : Nat → Compose (List Node)
  | 0 => fail
  | fuel + 1 => do
      match ← next? with
      | some .blockEntry =>
          skip
          let first ← nodeBefore fuel true false [.blockEntry, .blockEnd]
          return first :: (← blockItems fuel)
      | some .blockEnd => skip; return []
      | _ => fail

/-- Reads the items of a sequence that is not indented. -/
def indentlessItems : Nat → Compose (List Node)
  | 0 => fail
  | fuel + 1 => do
      if ← nextIs [.blockEntry] then
        skip
        let first ← nodeBefore fuel true false [.blockEntry, .key, .value, .blockEnd]
        return first :: (← indentlessItems fuel)
      else return []

/-- Reads the value behind a key of a block mapping. -/
def blockValue : Nat → Compose Node
  | 0 => fail
  | fuel + 1 => do
      if ← nextIs [.value] then
        skip
        nodeBefore fuel true true [.key, .value, .blockEnd]
      else return .absent

/-- Reads the entries of a block mapping. -/
def blockEntries : Nat → Compose (List (Node × Node))
  | 0 => fail
  | fuel + 1 => do
      match ← next? with
      | some .key =>
          skip
          let name ← nodeBefore fuel true true [.key, .value, .blockEnd]
          let value ← blockValue fuel
          return (name, value) :: (← blockEntries fuel)
      | some .blockEnd => skip; return []
      | _ => fail

/-- Reads the value that may stand behind a key in brackets. -/
def flowValue : Nat → List Token → Compose Node
  | 0, _ => fail
  | fuel + 1, ends => do
      if ← nextIs [.value] then
        skip
        nodeBefore fuel false false ends
      else return .absent

/-- Reads a mapping of one entry, which stands in a sequence without brackets of its own. -/
def flowPair : Nat → Compose Node
  | 0 => fail
  | fuel + 1 => do
      let isNameless ← nextIs [.value, .flowEntry, .flowSequenceEnd]
      let name ← if isNameless then do skip; pure Node.absent else node fuel false false
      let value ← flowValue fuel [.flowEntry, .flowSequenceEnd]
      return .mapping [(name, value)]

/-- Reads the items of a sequence in brackets. -/
def flowItems : Nat → Bool → Compose (List Node)
  | 0, _ => fail
  | fuel + 1, isFirst => do
      if ← nextIs [.flowSequenceEnd] then
        skip
        return []
      if !isFirst then expect .flowEntry
      match ← next? with
      | some .flowSequenceEnd => skip; return []
      | some .key =>
          skip
          let pair ← flowPair fuel
          return pair :: (← flowItems fuel false)
      | _ =>
          let first ← node fuel false false
          return first :: (← flowItems fuel false)

/-- Reads the entries of a mapping in brackets. -/
def flowEntries : Nat → Bool → Compose (List (Node × Node))
  | 0, _ => fail
  | fuel + 1, isFirst => do
      if ← nextIs [.flowMappingEnd] then
        skip
        return []
      if !isFirst then expect .flowEntry
      match ← next? with
      | some .flowMappingEnd => skip; return []
      | some .key =>
          skip
          let name ← nodeBefore fuel false false [.value, .flowEntry, .flowMappingEnd]
          let value ← flowValue fuel [.flowEntry, .flowMappingEnd]
          return (name, value) :: (← flowEntries fuel false)
      | _ =>
          let name ← node fuel false false
          return (name, .absent) :: (← flowEntries fuel false)

end

/-! ## Documents -/

/-- Reads the directives before a document. A version is given at most once, and so is a
handle. -/
def directives : Nat → Bool → Compose Unit
  | 0, _ => fail
  | fuel + 1, hasVersion => do
      match ← next? with
      | some (.directive "YAML" _) =>
          if hasVersion then fail
          skip
          directives fuel true
      | some (.directive _ [handle, _]) =>
          if handle ∈ (← get).handles then fail
          skip
          modify fun composer => { composer with handles := handle :: composer.handles }
          directives fuel hasVersion
      | _ => return ()

/-- Whether a document is marked here, by its start or a directive. -/
def isMarked : Compose Bool := do
  match ← next? with
  | some .documentStart => return true
  | some (.directive ..) => return true
  | _ => return false

/-- Drops the marks of the end of a document. -/
def skipEnds : Nat → Compose Unit
  | 0 => return ()
  | fuel + 1 => do
      if ← nextIs [.documentEnd] then
        skip
        skipEnds fuel

/-- Reads a single document, behind which nothing may follow. -/
def document (fuel : Nat) : Compose Node := do
  let root ←
    if ← isMarked then do
      directives fuel false
      expect .documentStart
      let isEmpty := (← next?).isNone || (← isMarked) || (← nextIs [.documentEnd])
      if isEmpty then pure Node.absent else node fuel true false
    else node fuel true false
  skipEnds fuel
  if (← next?).isSome then fail
  return root

end Compose

/-- The root of the only document of a text. -/
def Node.ofText? (text : String) : Option Node := do
  let tokens ← tokensOf? text.toList
  let (root, _) ← (Compose.document (8 * tokens.length + 8)).run ⟨tokens, [], []⟩
  return root

end Pipework.Yaml

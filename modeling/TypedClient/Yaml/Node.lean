import TypedClient.Yaml.PlainType
import TypedClient.Yaml.Token

/-!
# Nodes

The tokens of a document form a graph of nodes. An alias is the node of its anchor itself, also from
within that node, so nodes are numbered and refer to one another by number. A node has its number
before its parts are read.
-/

namespace TypedClient.Yaml

/-- What a node holds. -/
inductive NodeContent where
  | scalar (text : String)
  | sequence (items : List Nat)
  | mapping (entries : List (Nat × Nat))
  deriving Repr, Inhabited

/-- A node of a document. -/
structure Node where
  tag : Tag
  content : NodeContent
  deriving Repr, Inhabited

/-- The text of a node that is a scalar. -/
def Node.text? (node : Node) : Option String :=
  match node.content with
  | .scalar text => some text
  | _ => none

/-- A document that is being composed. -/
structure Composer where
  tokens : List Token
  /-- What becomes of a demand for more tokens: the end of the text, or an error. -/
  ending : Option YamlError
  nodes : Array Node := #[]
  anchors : List (String × Nat) := []
  /-- What the handles of tags stand for. -/
  handles : List (String × String) := []
  /-- How many collections are open. -/
  depth : Nat := 0

/-- Computations that read tokens and number nodes. -/
abbrev Compose := StateT Composer (Except YamlError)

namespace Compose

/-- The next token, if the text goes on. -/
def peek : Compose (Option Token) := do
  let s ← get
  match s.tokens, s.ending with
  | t :: _, _ => return some t
  | [], none => return none
  | [], some e => throw e

/-- Moves on to the token after the next one. -/
def skip : Compose Unit := modify fun s => { s with tokens := s.tokens.drop 1 }

/-- Whether the next token is one of some, all of them without text. -/
def isNext (options : List Token) : Compose Bool := do
  return (← peek).any options.contains

/-- Moves past a token if it is the next one. -/
def skipIf (t : Token) : Compose Bool := do
  let found ← isNext [t]
  if found then skip
  return found

/-- Moves past a token, which has to be the next one. -/
def expect (t : Token) : Compose Unit := do
  if !(← skipIf t) then throw .malformed

/-- A new node. -/
def addNode (tag : Tag) (content : NodeContent) : Compose Nat := do
  let s ← get
  set { s with nodes := s.nodes.push ⟨tag, content⟩ }
  return s.nodes.size

/-- A scalar where nothing is written. -/
def emptyNode : Compose Nat := addNode .null (.scalar "")

/-- The parts of a node that had none. -/
def fill (id : Nat) (content : NodeContent) : Compose Unit :=
  modify fun s => { s with nodes := s.nodes.modify id fun node => { node with content } }

/-- An anchor, if there is one, set on a node. -/
def setAnchor (anchor : Option String) (id : Nat) : Compose Unit := do
  match anchor with
  | none => pure ()
  | some name => modify fun s => { s with anchors := (name, id) :: s.anchors }

/-- What stands before a node: its anchor and the name of its tag. -/
structure Properties where
  anchor : Option String := none
  tag : Option String := none

/-- The name that a tag gives, its handle replaced. -/
def tagName (handle : Option String) (suffix : String) : Compose String := do
  match handle with
  | none => return suffix
  | some h =>
    match (← get).handles.lookup h with
    | some space => return space ++ suffix
    | none => throw .malformed

/-- An anchor here. -/
def anchor? : Compose (Option String) := do
  match ← peek with
  | some (.anchor name) => skip; return some name
  | _ => return none

/-- A tag here, by its handle and suffix. -/
def tag? : Compose (Option (Option String × String)) := do
  match ← peek with
  | some (.tag handle suffix) => skip; return some (handle, suffix)
  | _ => return none

/-- The properties of a node, in either order. -/
def properties : Compose Properties := do
  let before ← anchor?
  let tag ← tag?
  let anchor ← if before.isNone && tag.isSome then anchor? else pure before
  return ⟨anchor, ← tag.mapM fun (handle, suffix) => tagName handle suffix⟩

/-- The type of a scalar: by its tag, by its form if it is plain, and otherwise text. A lone
exclamation mark asks for the form even of quoted text. -/
def scalarTag (tag : Option String) (text : String) (isPlain : Bool) : Tag :=
  match tag with
  | none => if isPlain then Tag.ofPlain text else .text
  | some "!" => Tag.ofPlain text
  | some name => Tag.ofName name

/-- The type of a collection: by its tag, or as it is written. -/
def collectionTag (tag : Option String) (written : Tag) : Tag :=
  match tag with
  | none => written
  | some "!" => written
  | some name => Tag.ofName name

/-- Where a node stands, which decides how it may be written. -/
inductive Position where
  | block
  /-- The value of a block mapping, which may be a sequence that is not indented. -/
  | blockValue
  | flow
  deriving DecidableEq

/-- What ends a value within a flow mapping. -/
def flowMappingStops : List Token := [.flowEntry, .flowMappingEnd]

/-- What ends a value within a flow sequence. -/
def flowSequenceStops : List Token := [.flowEntry, .flowSequenceEnd]

/-- The greatest number of collections that may be open at a time. -/
def maxDepth : Nat := 491

/-- What stands within one more collection. -/
def nested {α : Type} (parts : Compose α) : Compose α := do
  if (← get).depth ≥ maxDepth then throw (.fault .tooDeep)
  modify fun s => { s with depth := s.depth + 1 }
  let found ← parts
  modify fun s => { s with depth := s.depth - 1 }
  return found

mutual

/-- A node. -/
def node : (fuel : Nat) → Position → Compose Nat
  | 0, _ => throw .malformed
  | fuel + 1, position => do
    match ← peek with
    | some (.alias name) =>
      skip
      match (← get).anchors.lookup name with
      | some id => return id
      | none => throw .malformed
    | _ =>
      let p ← properties
      let next ← peek
      let known := (← get).anchors
      if p.anchor.any fun name => (known.lookup name).isSome then throw .malformed
      let collection (start : Token) (written : Tag) (empty : NodeContent)
          (parts : Compose NodeContent) : Compose Nat := do
        if start != .blockEntry then skip
        let id ← addNode (collectionTag p.tag written) empty
        setAnchor p.anchor id
        fill id (← nested parts)
        return id
      match next, position with
      | some .blockEntry, .blockValue =>
        collection .blockEntry .sequence (.sequence []) do
          return .sequence (← unindentedItems fuel)
      | some (.scalar text isPlain), _ =>
        skip
        let id ← addNode (scalarTag p.tag text isPlain) (.scalar text)
        setAnchor p.anchor id
        return id
      | some .flowSequenceStart, _ =>
        collection .flowSequenceStart .sequence (.sequence []) do
          return .sequence (← flowItems fuel true)
      | some .flowMappingStart, _ =>
        collection .flowMappingStart .mapping (.mapping []) do
          return .mapping (← flowEntries fuel true)
      | some .blockSequenceStart, .flow => throw .malformed
      | some .blockMappingStart, .flow => throw .malformed
      | some .blockSequenceStart, _ =>
        collection .blockSequenceStart .sequence (.sequence []) do
          return .sequence (← blockItems fuel)
      | some .blockMappingStart, _ =>
        collection .blockMappingStart .mapping (.mapping []) do
          return .mapping (← blockEntries fuel)
      | _, _ =>
        if p.anchor.isNone && p.tag.isNone then throw .malformed
        let id ← addNode (scalarTag p.tag "" true) (.scalar "")
        setAnchor p.anchor id
        return id

/-- A node, or nothing where one of some tokens follows. -/
def nodeUnless : (fuel : Nat) → Position → (stops : List Token) → Compose Nat
  | 0, _, _ => throw .malformed
  | fuel + 1, position, stops => do
    if ← isNext stops then emptyNode else node fuel position

/-- The items of a block sequence up to its end. -/
def blockItems : (fuel : Nat) → Compose (List Nat)
  | 0 => throw .malformed
  | fuel + 1 => do
    if ← skipIf .blockEntry then
      let item ← nodeUnless fuel .block [.blockEntry, .blockEnd]
      return item :: (← blockItems fuel)
    else
      expect .blockEnd
      return []

/-- The items of a sequence that is not indented, which has no end of its own. -/
def unindentedItems : (fuel : Nat) → Compose (List Nat)
  | 0 => throw .malformed
  | fuel + 1 => do
    if ← skipIf .blockEntry then
      let item ← nodeUnless fuel .block [.blockEntry, .key, .value, .blockEnd]
      return item :: (← unindentedItems fuel)
    else return []

/-- The entries of a block mapping up to its end. -/
def blockEntries : (fuel : Nat) → Compose (List (Nat × Nat))
  | 0 => throw .malformed
  | fuel + 1 => do
    if ← skipIf .key then
      let key ← nodeUnless fuel .blockValue [.key, .value, .blockEnd]
      let value ← if ← skipIf .value then nodeUnless fuel .blockValue [.key, .value, .blockEnd]
        else emptyNode
      return (key, value) :: (← blockEntries fuel)
    else
      expect .blockEnd
      return []

/-- The items of a flow sequence up to its end. An item with a key is a mapping of one entry. -/
def flowItems : (fuel : Nat) → (isFirst : Bool) → Compose (List Nat)
  | 0, _ => throw .malformed
  | fuel + 1, isFirst => do
    if ← skipIf .flowSequenceEnd then return []
    if !isFirst then expect .flowEntry
    if ← skipIf .key then
      let id ← addNode .mapping (.mapping [])
      fill id (← nested do
        let key ← nodeUnless fuel .flow (.value :: flowSequenceStops)
        let value ← if ← skipIf .value then nodeUnless fuel .flow flowSequenceStops else emptyNode
        return .mapping [(key, value)])
      return id :: (← flowItems fuel false)
    else if ← skipIf .flowSequenceEnd then return []
    else
      let item ← node fuel .flow
      return item :: (← flowItems fuel false)

/-- The entries of a flow mapping up to its end. A node without a key token is a key alone. -/
def flowEntries : (fuel : Nat) → (isFirst : Bool) → Compose (List (Nat × Nat))
  | 0, _ => throw .malformed
  | fuel + 1, isFirst => do
    if ← skipIf .flowMappingEnd then return []
    if !isFirst then expect .flowEntry
    if ← skipIf .key then
      let key ← nodeUnless fuel .flow (.value :: flowMappingStops)
      let value ← if ← skipIf .value then nodeUnless fuel .flow flowMappingStops else emptyNode
      return (key, value) :: (← flowEntries fuel false)
    else if ← skipIf .flowMappingEnd then return []
    else
      let key ← node fuel .flow
      let value ← emptyNode
      return (key, value) :: (← flowEntries fuel false)

end

/-- The handles that need no directive. -/
def defaultHandles : List (String × String) := [("!", "!"), ("!!", commonTagSpace)]

/-- The directives before a document: whether a version was given, and the handles so far. -/
def directives : (fuel : Nat) → (hasVersion : Bool) → (handles : List (String × String)) →
    Compose (List (String × String))
  | 0, _, _ => throw .malformed
  | fuel + 1, hasVersion, handles => do
    match ← peek with
    | some (.versionDirective major) =>
      if hasVersion || major != 1 then throw .malformed
      skip
      directives fuel true handles
    | some (.tagDirective handle leading) =>
      if (handles.lookup handle).isSome then throw .malformed
      skip
      directives fuel hasVersion (handles ++ [(handle, leading)])
    | some .otherDirective =>
      skip
      directives fuel hasVersion handles
    | _ => return handles ++ defaultHandles

/-- Whether the next token belongs to the frame of a document and not to its content. -/
def atFrame : Compose Bool := do
  match ← peek with
  | none => return true
  | some (.versionDirective _) => return true
  | some (.tagDirective _ _) => return true
  | some t => return [Token.otherDirective, .documentStart, .documentEnd].contains t

/-- Moves past the ends of documents. -/
def skipEnds : (fuel : Nat) → Compose Unit
  | 0 => pure ()
  | fuel + 1 => do
    if ← skipIf .documentEnd then skipEnds fuel

/-- The one document of a text, if there is one. Only the first may start without a mark, and
nothing may follow it. -/
def document (fuel : Nat) : Compose (Option Nat) := do
  if (← peek).isNone then return none
  let startsBare := !(← atFrame) || (← isNext [.documentEnd])
  if startsBare then modify fun s => { s with handles := defaultHandles }
  else
    let handles ← directives fuel false []
    modify fun s => { s with handles }
    expect .documentStart
  let root ← if !startsBare && (← atFrame) then emptyNode else node fuel .block
  skipEnds fuel
  if (← peek).isSome then
    let _ ← directives fuel false []
    throw .malformed
  return some root

end Compose

/-- A document: its nodes, and the one that is the document itself. -/
structure NodeGraph where
  nodes : Array Node
  root : Nat

/-- The document in a text, if there is one. -/
def NodeGraph.ofText (cs : List Char) : Except YamlError (Option NodeGraph) := do
  let scanned := Scanner.ofText cs
  let tokens := scanned.tokens.toList
  let (root?, s) ← (Compose.document (4 * tokens.length + 8)).run
    { tokens, ending := scanned.error }
  return root?.map fun root => ⟨s.nodes, root⟩

end TypedClient.Yaml

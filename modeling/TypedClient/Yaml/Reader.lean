import TypedClient.Document.Tree
import TypedClient.Number.Numeral
import TypedClient.Text.Base64
import TypedClient.Text.LetterCase
import TypedClient.Yaml.Node

/-!
# Reading YAML

The nodes of a document become values in a store. Collections are built in the order in which they
are met, outer ones before inner ones: a collection is first put into the store empty, then filled,
and the collections among its parts wait for their turn. That is how a collection can be part of
itself. An alias yields the very value that its anchor does.

The entries of mappings under a merge key come first, so the mapping's own entries override them.

A set is written as a mapping, whose values are built but do not count. An ordered mapping is written
as a sequence of mappings with one entry each, and becomes a sequence of pairs.
-/

namespace TypedClient.Yaml

/-! ## Scalars -/

/-- The words that stand for true and for false. -/
def truthWords : List (String × Bool) :=
  [("yes", true), ("no", false), ("true", true), ("false", false), ("on", true), ("off", false)]

/-- The number of groups in sixtieths, the last group counting once. -/
def ofSixtieths (groups : List Int) : Int := groups.foldl (fun n group => 60 * n + group) 0

/-- The integer that a scalar writes. -/
def intOf (text : String) : Except Fault Int :=
  let cs := text.toList.filter (· != '_')
  let negative := cs.head? = some '-'
  let unsigned := afterSign cs
  let signed (n : Int) : Int := if negative then -n else n
  match unsigned with
  | [] => .error .emptyNumeral
  | '0' :: 'b' :: rest => (Numeral.readInt 2 rest).map signed
  | '0' :: 'x' :: rest => (Numeral.readInt 16 rest).map signed
  | ['0'] => .ok 0
  | '0' :: _ => (Numeral.readInt 8 unsigned).map signed
  | _ =>
    if unsigned.contains ':' then
      ((Text.piecesAt ':' unsigned).mapM (Numeral.readInt 10)).map fun groups =>
        signed (ofSixtieths groups)
    else (Numeral.readInt 10 unsigned).map signed

/-- The number of groups in sixtieths, added up from the last one, whose unit is given. A unit
beyond the range of the arithmetic is a fault. -/
def floatOfSixtieths : (unit : Nat) → (sum : Binary64) → (lastFirst : List Binary64) →
    Except Fault Binary64
  | _, sum, [] => .ok sum
  | unit, sum, group :: rest =>
    match Binary64.ofInt unit with
    | .infinite _ => .error .tooLarge
    | factor => floatOfSixtieths (unit * 60) (sum.add (group.multiply factor)) rest

/-- The characters of a floating-point number that count. -/
def floatChars (text : String) : List Char := (Text.lowered text).toList.filter (· != '_')

/-- The name of what is not a number. -/
def nanName : List Char := ".nan".toList

/-- Whether a scalar names what is not a number. -/
def isNanName (text : String) : Bool := afterSign (floatChars text) = nanName

/-- The floating-point number that a scalar writes. -/
def floatOf (text : String) : Except Fault Binary64 :=
  let cs := floatChars text
  let negative := cs.head? = some '-'
  let unsigned := afterSign cs
  let signed (x : Binary64) : Binary64 := if negative then x.negate else x
  if cs.isEmpty then .error .emptyNumeral
  else if unsigned = ".inf".toList then .ok (.infinite negative)
  else if unsigned = nanName then .ok .nan
  else if unsigned.contains ':' then
    ((Text.piecesAt ':' unsigned).mapM Numeral.readFloat).bind fun groups =>
      (floatOfSixtieths 1 (Binary64.zero false) groups.reverse).map signed
  else (Numeral.readFloat unsigned).map signed

/-- The microseconds that the digits of a fraction of a second write, further digits not
counting. -/
def microseconds (digits : List Char) : Nat :=
  Json.decimalNumber ((digits ++ List.replicate 6 '0').take 6)

/-- The date or moment that a scalar writes. -/
def timestampOf (text : String) : Except Fault Scalar :=
  match timestampParts text.toList with
  | none => .error .lacksMember
  | some parts =>
    match Date.of? parts.year parts.month parts.day, parts.time with
    | none, _ => .error .badDate
    | some date, none => .ok (.date date)
    | some date, some (hour, minute, second, fraction) =>
      match Moment.of? date hour minute second (microseconds fraction) parts.offset with
      | some m => .ok (.moment m)
      | none => .error .badDate

/-- The bytes that a scalar writes. -/
def bytesOf (text : String) : Option (List UInt8) :=
  let cs := text.toList
  if cs.all fun c => c.toNat < 0x80 then Text.base64? cs else none

/-- The value of a scalar of a type. -/
def scalarOf (tag : Tag) (text : String) : Except YamlError Scalar :=
  let orFault {α : Type} (result : Except Fault α) (wrap : α → Scalar) : Except YamlError Scalar :=
    (result.map wrap).mapError .fault
  match tag with
  | .null => .ok .null
  | .bool => match truthWords.lookup (Text.lowered text) with
    | some b => .ok (.bool b)
    | none => .error (.fault .missingEntry)
  | .int => orFault (intOf text) .int
  | .float => orFault (floatOf text) .float
  | .timestamp => orFault (timestampOf text) id
  | .text => .ok (.text text)
  | .binary => match bytesOf text with
    | some bs => .ok (.bytes bs)
    | none => .error .malformed
  | _ => .error .malformed

/-! ## Building -/

/-- A document that is being built. -/
structure Builder where
  nodes : Array Node
  store : Store
  /-- The values of the nodes that have one already. -/
  built : Array (Option Value)
  /-- The collections still to be filled, by node and value, oldest first. -/
  waiting : List (Nat × Value) := []

/-- Computations that build values. -/
abbrev Build := StateT Builder (Except YamlError)

namespace Build

/-- A node by its number. -/
def nodeAt (id : Nat) : Build Node := do
  return (← get).nodes[id]?.getD ⟨.null, .scalar ""⟩

/-- The text of a node that has to be a scalar. A mapping counts as its value under the value key,
which must not lead back to it. -/
def textOf : (fuel : Nat) → Nat → Build String
  | 0, _ => throw (.fault .tooDeep)
  | fuel + 1, id => do
    match (← nodeAt id).content with
    | .scalar text => return text
    | .sequence _ => throw .malformed
    | .mapping entries =>
      match ← entries.findM? fun (key, _) => return (← nodeAt key).tag == .value with
      | some (_, value) => textOf fuel value
      | none => throw .malformed

/-- A value kept for a node. -/
def keep (id : Nat) (v : Value) : Build Unit :=
  modify fun b => { b with built := b.built.setIfInBounds id (some v) }

/-- A collection kept for a node, to be filled later. -/
def await (id : Nat) (v : Value) : Build Unit := do
  keep id v
  modify fun b => { b with waiting := b.waiting ++ [(id, v)] }

/-- The store with one more collection of a type, which is empty, if the type is one of
collections. -/
def emptyOf (store : Store) : Tag → Option (Store × Value)
  | .sequence => some (store.addSequence [])
  | .pairs => some (store.addSequence [])
  | .set => some (store.addTyped .set [])
  | .mapping => some (store.addMapping [])
  | _ => none

/-- The value of a node, a collection being empty at first. -/
def value (id : Nat) : Build Value := do
  let b ← get
  match b.built[id]?.join with
  | some v => return v
  | none =>
    let node ← nodeAt id
    match emptyOf b.store node.tag with
    | some (store, v) =>
      set { b with store }
      await id v
      return v
    | none =>
      if let .other _ := node.tag then throw .malformed
      if node.tag == .merge || node.tag == .value then throw .malformed
      let text ← textOf (b.nodes.size + 1) id
      if node.tag == .timestamp && node.text?.isNone then throw (.fault .notText)
      let v := Value.scalar (← scalarOf node.tag text)
      keep id v
      return v

/-- The entries of a node replaced. -/
def setEntries (id : Nat) (entries : List (Nat × Nat)) : Build Unit :=
  modify fun b => { b with
    nodes := b.nodes.modify id fun node => { node with content := .mapping entries } }

/-- The entries of a node, if it is a mapping. -/
def entries? (id : Nat) : Build (Option (List (Nat × Nat))) := do
  match (← nodeAt id).content with
  | .mapping entries => return some entries
  | _ => return none

mutual

/-- The merge keys of a mapping replaced by the entries that they stand for, which come first. -/
def merge : (fuel : Nat) → Nat → Build Unit
  | 0, _ => throw .malformed
  | fuel + 1, id => do
    let merged ← takeMerges fuel id
    if !merged.isEmpty then setEntries id (merged ++ ((← entries? id).getD []))

/-- The entries that the merge keys of a mapping stand for. The merge keys are removed, and a key
that is only an equals sign becomes a text. -/
def takeMerges : (fuel : Nat) → Nat → Build (List (Nat × Nat))
  | 0, _ => throw .malformed
  | fuel + 1, id => do
    let entries := (← entries? id).getD []
    let nodes := (← get).nodes
    let tagOf (key : Nat) : Tag := (nodes[key]?.getD default).tag
    match entries.findIdx? fun (key, _) => tagOf key == .merge || tagOf key == .value with
    | none => return []
    | some position =>
      let (key, value) := entries.getD position (0, 0)
      if tagOf key == .merge then
        setEntries id (entries.eraseIdx position)
        let merged ← mergedFrom fuel value
        return merged ++ (← takeMerges fuel id)
      else
        modify fun b =>
          { b with nodes := b.nodes.modify key fun node => { node with tag := .text } }
        takeMerges fuel id

/-- The entries that the value of a merge key gives: those of a mapping, or those of the mappings of
a sequence, the last one first. -/
def mergedFrom : (fuel : Nat) → Nat → Build (List (Nat × Nat))
  | 0, _ => throw .malformed
  | fuel + 1, id => do
    match (← nodeAt id).content with
    | .mapping _ =>
      merge fuel id
      return (← entries? id).getD []
    | .sequence items =>
      let groups ← items.mapM fun item => do
        match ← entries? item with
        | none => throw .malformed
        | some _ =>
          merge fuel item
          return (← entries? item).getD []
      return groups.reverse.flatten
    | .scalar _ => throw .malformed

end

/-- Fuel for merging. Every entry is taken out at most once, so three calls for each are enough. -/
def mergeFuel (b : Builder) : Nat :=
  let sizeOfNode (node : Node) : Nat := match node.content with
    | .mapping entries => entries.length
    | _ => 0
  3 * b.nodes.foldl (fun total node => total + sizeOfNode node) 0 + 8

/-- A key of a mapping with the node that it comes from. -/
structure NodeKey where
  id : Nat
  scalar : Scalar
  /-- Whether the scalar is no number, by its name. -/
  isNamedNan : Bool

/-- Whether two keys of a mapping are one. What is not a number is the same key as another one only
if both come from one node or both are named. -/
def NodeKey.isSame (a b : NodeKey) : Bool :=
  if a.scalar == .float .nan && b.scalar == .float .nan then
    a.id == b.id || a.isNamedNan && b.isNamedNan
  else a.scalar.sameKey b.scalar

/-- The entries with one more. It takes the place of the one with its key, whose key stays. -/
def putEntry (key : NodeKey) (v : Value) : List (NodeKey × Value) → List (NodeKey × Value)
  | [] => [(key, v)]
  | (k, w) :: rest =>
    if k.isSame key then (k, v) :: rest else (k, w) :: putEntry key v rest

/-- The entries of a mapping as values, put one after the other. -/
def mappingEntries : List (Nat × Nat) → List (NodeKey × Value) → Build Entries
  | [], done => return done.map fun (key, v) => (key.scalar, v)
  | (key, v) :: rest, done => do
    match ← value key with
    | .scalar s =>
      let isNamedNan := ((← nodeAt key).text?.map isNanName).getD false
      let v ← value v
      mappingEntries rest (putEntry ⟨key, s, isNamedNan⟩ v done)
    | _ => throw .malformed

/-- The entries of a mapping as values, its merge keys replaced. -/
def mergedEntries (id : Nat) : Build Entries := do
  merge (mergeFuel (← get)) id
  mappingEntries ((← entries? id).getD []) []

/-- The pair that a mapping of one entry is. -/
def pairOf (id : Nat) : Build Value := do
  match ← entries? id with
  | some [(key, v)] =>
    let first ← value key
    let second ← value v
    let b ← get
    let (store, pair) := b.store.addTyped .pair [first, second]
    set { b with store }
    return pair
  | _ => throw .malformed

/-- A collection filled with the values of its parts. -/
def fill (id : Nat) (v : Value) : Build Unit := do
  let node ← nodeAt id
  match node.content, v with
  | .sequence items, .sequence target =>
    let values ← items.mapM (if node.tag == .pairs then pairOf else value)
    modify fun b => { b with store := b.store.setItems target values }
  | .mapping _, .mapping target =>
    let entries ← mergedEntries id
    modify fun b => { b with store := b.store.setEntries target entries }
  | .mapping _, .typed .set target =>
    let entries ← mergedEntries id
    modify fun b =>
      { b with store := b.store.setItems target (entries.map fun (key, _) => .scalar key) }
  | _, _ => throw .malformed

/-- The collections that wait filled, and those that are met on the way. -/
def fillAll : (fuel : Nat) → Build Unit
  | 0 => pure ()
  | fuel + 1 => do
    match (← get).waiting with
    | [] => pure ()
    | (id, v) :: rest =>
      modify fun b => { b with waiting := rest }
      fill id v
      fillAll fuel

/-- The value of a document. -/
def document (root : Nat) : Build Value := do
  let v ← value root
  fillAll ((← get).nodes.size + 1)
  return v

end Build

/-- Whether a character may occur in a text at all. -/
def isAllowed (c : Char) : Bool :=
  let n := c.toNat
  n = 0x09 || n = 0x0a || n = 0x0d || 0x20 ≤ n && n ≤ 0x7e || n = 0x85
    || 0xa0 ≤ n && n ≤ 0xd7ff || 0xe000 ≤ n && n ≤ 0xfffd || 0x10000 ≤ n

/-- The value of a text, put into a store. A text without a document is nothing. -/
def read (store : Store) (text : String) : Except YamlError (Store × Value) := do
  let cs := text.toList
  if !cs.all isAllowed then throw .malformed
  match ← NodeGraph.ofText cs with
  | none => return (store, .null)
  | some graph =>
    let (v, b) ← (Build.document graph.root).run {
      store, nodes := graph.nodes, built := Array.replicate graph.nodes.size none }
    return (b.store, v)

end TypedClient.Yaml

import TypedClient.Document.Store

/-!
# Documents as trees

For printing, a value is unfolded into a tree. The unfolding stops where a part would contain
itself: there the tree says `again`, which the printers either abbreviate or refuse.
-/

namespace TypedClient

/-- A value unfolded. -/
inductive Tree where
  | scalar (s : Scalar)
  | sequence (items : List Tree)
  | mapping (entries : List (Scalar × Tree))
  | typed (kind : TypedKind) (items : List Tree)
  | sequenceAgain
  | mappingAgain
  | typedAgain (kind : TypedKind)
  deriving Inhabited

namespace Tree

/-- A text. -/
def text (s : String) : Tree := .scalar (.text s)

/-- A truth value. -/
def bool (b : Bool) : Tree := .scalar (.bool b)

/-- The absent value. -/
def null : Tree := .scalar .null

/-- Whether the value is absent. -/
def isNull : Tree → Bool
  | .scalar .null => true
  | _ => false

/-- The entries with a value put under a key: in place if the key is there, and at the end if not.
The key that was there first stays. -/
def putEntry : List (Scalar × Tree) → Scalar → Tree → List (Scalar × Tree)
  | [], key, value => [(key, value)]
  | (k, t) :: rest, key, value =>
    if k.sameKey key then (k, value) :: rest else (k, t) :: putEntry rest key value

end Tree

namespace Store

/-- A value unfolded below the collections of a path. A path never holds a collection twice, so
`fuel` above their number is never used up. -/
def unfold (store : Store) : (fuel : Nat) → (path : List Value) → Value → Tree
  | _, _, .scalar s => .scalar s
  | 0, _, .sequence _ => .sequenceAgain
  | 0, _, .mapping _ => .mappingAgain
  | 0, _, .typed kind _ => .typedAgain kind
  | fuel + 1, path, .sequence id =>
    if path.contains (.sequence id) then .sequenceAgain
    else .sequence ((store.items id).map (store.unfold fuel (.sequence id :: path)))
  | fuel + 1, path, .mapping id =>
    if path.contains (.mapping id) then .mappingAgain
    else .mapping ((store.entries id).map fun (key, v) =>
      (key, store.unfold fuel (.mapping id :: path) v))
  | fuel + 1, path, .typed kind id =>
    if path.contains (.typed kind id) then .typedAgain kind
    else .typed kind ((store.items id).map (store.unfold fuel (.typed kind id :: path)))

/-- A value unfolded. -/
def tree (store : Store) (v : Value) : Tree := store.unfold (store.size + 1) [] v

end Store

mutual

/-- A tree put into a store. -/
def Tree.plant : Tree → Store → Store × Value
  | .scalar s, store => (store, .scalar s)
  | .sequence items, store =>
    let (store, values) := plantItems items store
    store.addSequence values
  | .mapping entries, store =>
    let (store, values) := plantEntries entries store
    store.addMapping values
  | .typed kind items, store =>
    let (store, values) := plantItems items store
    store.addTyped kind values
  | .sequenceAgain, store => store.addSequence []
  | .mappingAgain, store => store.addMapping []
  | .typedAgain kind, store => store.addTyped kind []

/-- The elements of a sequence put into a store. -/
def Tree.plantItems : List Tree → Store → Store × List Value
  | [], store => (store, [])
  | t :: rest, store =>
    let (store, v) := t.plant store
    let (store, vs) := plantItems rest store
    (store, v :: vs)

/-- The entries of a mapping put into a store. -/
def Tree.plantEntries : List (Scalar × Tree) → Store → Store × Entries
  | [], store => (store, [])
  | (key, t) :: rest, store =>
    let (store, v) := t.plant store
    let (store, vs) := plantEntries rest store
    (store, (key, v) :: vs)

end

end TypedClient

import TypedClient.Document.Scalar

/-!
# Documents as graphs

A document may refer to one of its own parts from several places, and a part may even contain
itself. So sequences and mappings are kept in a store and referred to by number: two references with
one number are the very same part. A store only grows, and every look-up in it is total: a number
that was never given out refers to an empty part.

Types that are written out make collections of two more kinds, which are kept among the sequences: a
set, whose elements are distinct scalars in the order in which they were added, and a pair, which
only occurs as an element of a sequence.
-/

namespace TypedClient

/-- The kinds of collections that only a written type makes. -/
inductive TypedKind where
  | pair
  | set
  deriving DecidableEq, Repr, Inhabited

/-- A value of a document. -/
inductive Value where
  | scalar (s : Scalar)
  | sequence (id : Nat)
  | mapping (id : Nat)
  | typed (kind : TypedKind) (id : Nat)
  deriving DecidableEq, Repr, Inhabited

namespace Value

/-- The absent value. -/
def null : Value := .scalar .null

/-- A text. -/
def text (s : String) : Value := .scalar (.text s)

/-- A truth value. -/
def bool (b : Bool) : Value := .scalar (.bool b)

/-- Whether the value is absent. -/
def isNull (v : Value) : Bool := v == null

/-- The text that a value is, if it is one. -/
def text? : Value → Option String
  | .scalar (.text s) => some s
  | _ => none

/-- The scalar that a value is, if it is one. -/
def scalar? : Value → Option Scalar
  | .scalar s => some s
  | _ => none

/-- The number of a mapping. -/
def mapping? : Value → Option Nat
  | .mapping id => some id
  | _ => none

end Value

/-- The entries of a mapping, in order. -/
abbrev Entries := List (Scalar × Value)

namespace Entries

/-- The value under a text key. -/
def value? (entries : Entries) (key : String) : Option Value :=
  (entries.find? fun (k, _) => k == .text key).map (·.2)

theorem value?_cons (k : Scalar) (v : Value) (rest : Entries) (key : String) :
    value? ((k, v) :: rest) key = if k = .text key then some v else value? rest key := by
  rw [value?, List.find?_cons]
  by_cases hk : k = .text key
  · simp [hk]
  · simp [hk, beq_false_of_ne hk, value?]

/-- The value under a text key, absent if there is none. -/
def get (entries : Entries) (key : String) : Value :=
  (entries.value? key).getD .null

/-- The entries with a value put under a key: in place if the key is there, and at the end if not.
The key that was there first stays. -/
def put : Entries → Scalar → Value → Entries
  | [], key, value => [(key, value)]
  | (k, v) :: rest, key, value =>
    if k.sameKey key then (k, value) :: rest else (k, v) :: put rest key value

end Entries

/-- The sequences and mappings of the documents read so far. -/
structure Store where
  sequences : Array (List Value) := #[]
  mappings : Array Entries := #[]
  deriving Inhabited, Repr

namespace Store

/-- The elements of a sequence. -/
def items (store : Store) (id : Nat) : List Value := store.sequences[id]?.getD []

/-- The entries of a mapping. -/
def entries (store : Store) (id : Nat) : Entries := store.mappings[id]?.getD []

/-- The value of a mapping under a text key, absent if there is none. -/
def get (store : Store) (id : Nat) (key : String) : Value := (store.entries id).get key

/-- The value of a mapping under a text key. -/
def find? (store : Store) (id : Nat) (key : String) : Option Value := (store.entries id).value? key

/-- The store with one more sequence, and that sequence. -/
def addSequence (store : Store) (items : List Value) : Store × Value :=
  ({ store with sequences := store.sequences.push items }, .sequence store.sequences.size)

/-- The store with one more collection of a kind, and that collection. -/
def addTyped (store : Store) (kind : TypedKind) (items : List Value) : Store × Value :=
  ({ store with sequences := store.sequences.push items }, .typed kind store.sequences.size)

/-- The store with one more mapping, and that mapping. -/
def addMapping (store : Store) (entries : Entries) : Store × Value :=
  ({ store with mappings := store.mappings.push entries }, .mapping store.mappings.size)

/-- The store with other elements in a sequence. -/
def setItems (store : Store) (id : Nat) (items : List Value) : Store :=
  { store with sequences := store.sequences.setIfInBounds id items }

/-- The store with other entries in a mapping. -/
def setEntries (store : Store) (id : Nat) (entries : Entries) : Store :=
  { store with mappings := store.mappings.setIfInBounds id entries }

/-- The number of collections that a value can be: what is kept as a sequence may be referred to as
a sequence, as a pair and as a set. -/
def size (store : Store) : Nat := 3 * store.sequences.size + store.mappings.size

/-- Whether a condition takes the value for true: a collection is true if not empty. -/
def truthy (store : Store) : Value → Bool
  | .scalar s => s.truthy
  | .sequence id => !(store.items id).isEmpty
  | .mapping id => !(store.entries id).isEmpty
  | .typed _ id => !(store.items id).isEmpty

/-- The first of two values that is true, the second if neither is. -/
def either (store : Store) (v w : Value) : Value := if store.truthy v then v else w

end Store

end TypedClient

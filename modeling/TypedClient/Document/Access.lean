import TypedClient.Document.Display
import TypedClient.Fault

/-!
# Access to values of an expected shape

Documents are read with little suspicion: where a mapping or a sequence is expected, a value of
another shape is a fault. A set is gone through in the order of its elements, though that order
means nothing.
-/

namespace TypedClient.Store

/-- The entry of a value that has to be a mapping, absent if there is none. -/
def member (store : Store) (v : Value) (key : String) : Except Fault Value :=
  match v with
  | .mapping id => .ok (store.get id key)
  | _ => .error .lacksMember

/-- The entries of a value that has to be a mapping unless it counts as false. -/
def entriesOrNone (store : Store) (v : Value) : Except Fault Entries :=
  match v with
  | .mapping id => .ok (store.entries id)
  | v => if store.truthy v then .error .lacksMember else .ok []

/-- What going through a value meets: the elements of a collection, the keys of a mapping, the
characters of a text, the numbers that bytes are. -/
def iterate (store : Store) (v : Value) : Except Fault (List Value) :=
  match v with
  | .sequence id => .ok (store.items id)
  | .mapping id => .ok ((store.entries id).map fun (key, _) => .scalar key)
  | .typed _ id => .ok (store.items id)
  | .scalar (.text s) => .ok (s.toList.map fun c => .text (String.singleton c))
  | .scalar (.bytes bs) => .ok (bs.map fun b => .scalar (.int b.toNat))
  | _ => .error .notIterable

/-- What going through a value meets, nothing if it counts as false. -/
def iterateOrNone (store : Store) (v : Value) : Except Fault (List Value) :=
  if store.truthy v then store.iterate v else .ok []

/-- The first element of a value: of a sequence or a pair, of a text, of bytes, or under the key zero
of a mapping. -/
def firstOf (store : Store) (v : Value) : Except Fault Value :=
  match v with
  | .sequence id => match store.items id with
    | item :: _ => .ok item
    | [] => .error .missingItem
  | .typed .pair id => match store.items id with
    | item :: _ => .ok item
    | [] => .error .missingItem
  | .mapping id => match (store.entries id).find? fun (key, _) => key.sameKey (.int 0) with
    | some (_, value) => .ok value
    | none => .error .missingEntry
  | .scalar (.text s) => match s.toList with
    | c :: _ => .ok (.text (String.singleton c))
    | [] => .error .missingItem
  | .scalar (.bytes bs) => match bs with
    | b :: _ => .ok (.scalar (.int b.toNat))
    | [] => .error .missingItem
  | _ => .error .notIndexable

/-- Whether a value can be a key: a scalar can, and a pair of scalars. -/
def isKey (store : Store) : Value → Bool
  | .scalar _ => true
  | .typed .pair id => (store.items id).all fun v => v.scalar?.isSome
  | _ => false

/-- Whether a value can be looked for among others: a key can, and a set. -/
def isSought (store : Store) : Value → Bool
  | .typed .set _ => true
  | v => store.isKey v

/-- A value as plain text, the empty text if it counts as false. -/
def plainOrEmpty (store : Store) (v : Value) : String :=
  if store.truthy v then store.plain v else ""

end TypedClient.Store

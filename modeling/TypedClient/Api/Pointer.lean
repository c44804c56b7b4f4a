import TypedClient.Document.Store
import TypedClient.Text.Edit

/-!
# Pointers

A pointer names a part of the document that it stands in: `#/` and then the keys on the way to it,
with slashes between them. A tilde or a slash within a key is written `~0` or `~1`.
-/

namespace TypedClient

/-- Pointers within a document. -/
structure Pointer where
  keys : List String
  deriving DecidableEq, Repr

namespace Pointer

/-- A key as a pointer writes it. -/
def encode (key : String) : String :=
  String.ofList (Text.replaceChar '/' ['~', '1'] (Text.replaceChar '~' ['~', '0'] key.toList))

/-- The key that a part of a pointer writes. -/
def decode (part : String) : String :=
  String.ofList (Text.replacePair '~' '0' ['~'] (Text.replacePair '~' '1' ['/'] part.toList))

/-- The pointer of a text, if it is one within the document. -/
def ofText? (s : String) : Option Pointer :=
  match s.toList with
  | '#' :: '/' :: rest =>
    some ⟨(Text.piecesAt '/' rest).map fun part => decode (String.ofList part)⟩
  | _ => none

/-- The text of a pointer. -/
def text (p : Pointer) : String := "#/" ++ "/".intercalate (p.keys.map encode)

/-- The value that keys lead to, each a key of the mapping that the ones before it lead to. -/
def follow (store : Store) : List String → Value → Option Value
  | [], v => some v
  | key :: rest, v =>
    match v with
    | .mapping id => (store.find? id key).bind (follow store rest)
    | _ => none

end Pointer

/-- The value that a pointer leads to, absent if it leads nowhere. -/
def resolvePointer (store : Store) (reference : String) (document : Value) : Value :=
  ((Pointer.ofText? reference).bind fun p => Pointer.follow store p.keys document).getD .null

/-- A value, or the mapping that it refers to. A reference is followed once, and stays as it is if
it does not lead to a mapping. -/
def dereference (store : Store) (v document : Value) : Value :=
  match v with
  | .mapping id =>
    match (store.get id "$ref").text? with
    | some reference =>
      match resolvePointer store reference document with
      | .mapping target => .mapping target
      | _ => v
    | none => v
  | _ => v

end TypedClient

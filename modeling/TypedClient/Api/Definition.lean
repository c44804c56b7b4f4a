import TypedClient.Document.Access

/-!
# Definitions

The named schemas of a document, and what a running client has to know of it.
-/

namespace TypedClient

/-- The named schemas of a document. -/
def definitions (store : Store) (document : Value) : Except Fault Entries := do
  match ← store.member document "definitions" with
  | .mapping id => return store.entries id
  | _ =>
    match ← store.member document "components" with
    | .mapping components =>
      match store.get components "schemas" with
      | .mapping id => return store.entries id
      | _ => return []
    | _ => return []

end TypedClient

import TypedClient.Api.Parameter

/-!
# Responses

What an operation returns is described by its successful response: of the responses whose code
starts with a two, by their codes, and then the default one, the first that has a schema.
-/

namespace TypedClient.Response

/-- The schema of a response, directly or of its first media type that has one. A response that is
no mapping, or has no schema, gives none. -/
def schema? (store : Store) (document raw : Value) : Except Fault (Option SchemaSite) :=
  match dereference store raw document with
  | .mapping id =>
    if !(store.get id "schema").isNull then .ok (some (.value (.mapping id)))
    else do
      let content ← store.entriesOrNone (store.get id "content")
      let schema := Parameter.firstSchema store content
      return if schema.isNull then none else some (.content schema)
  | _ => .ok none

/-- The responses with a successful code, by code. -/
def successful (entries : Entries) : List (String × Value) :=
  ((entries.map fun (code, response) => (code.plain, response)).filter fun (code, _) =>
    code.toList.head? == some '2').mergeSort fun a b => !Text.before b.1 a.1

/-- The responses that may describe the result, in order of preference. -/
def candidates (entries : Entries) : List Value :=
  (successful entries).map (·.2) ++ (entries.value? "default").toList

/-- The first schema among responses. -/
def firstSchema (store : Store) (document : Value) :
    List Value → Except Fault (Option SchemaSite)
  | [] => .ok none
  | raw :: rest => do
    match ← schema? store document raw with
    | some site => return some site
    | none => firstSchema store document rest

/-- The schema of what an operation returns, if it returns anything. -/
def success (store : Store) (details document : Value) : Except Fault (Option SchemaSite) := do
  match ← store.member details "responses" with
  | .mapping id => firstSchema store document (candidates (store.entries id))
  | _ => return none

end TypedClient.Response

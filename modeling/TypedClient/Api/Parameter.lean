import TypedClient.Api.Pointer
import TypedClient.Document.Access
import TypedClient.Failure
import TypedClient.Naming.Identifier
import TypedClient.Naming.Words
import TypedClient.Schema.Resolver

/-!
# Parameters

The parameters of an operation are those of its path, overridden by its own, and its request body.
Two parameters are one if they agree in name and location. Required ones come first.
-/

namespace TypedClient

/-- A parameter of an operation. -/
structure Parameter where
  name : String
  location : String
  required : Bool
  description : String
  schema : SchemaSite
  deriving DecidableEq, Repr

namespace Parameter

/-- The name that a parameter has in the generated code. -/
def binding (p : Parameter) : String :=
  Naming.safeIdentifier (Naming.camelCase (Naming.slug p.name p.name))

/-- The schema of the first media type that has one, absent if none has. -/
def firstSchema (store : Store) (content : Entries) : Value :=
  (content.findSome? fun (_, media) => match media with
    | .mapping id =>
      let schema := store.get id "schema"
      if schema.isNull then none else some schema
    | _ => none).getD .null

/-- The parameter that a request body is, if there is one. -/
def ofBody (store : Store) (details document : Value) : Except Fault (Option Parameter) := do
  match dereference store (← store.member details "requestBody") document with
  | .mapping body =>
    let content ← store.entriesOrNone (store.get body "content")
    return some {
      name := "body"
      location := "body"
      required := store.truthy (store.get body "required")
      description := store.plainOrEmpty (store.get body "description")
      schema := .content (firstSchema store content) }
  | _ => return none

/-- The mapping of a parameter, by its number, with its name. -/
def named (store : Store) (document raw : Value) : Except SchemaError (Nat × String) :=
  let refusal := SchemaError.invalid "parameter without a name" (some (store.plain raw)) none
  match dereference store raw document with
  | .mapping id =>
    match store.find? id "name" with
    | some name => .ok (id, store.plain name)
    | none => .error refusal
  | _ => .error refusal

/-- The location of a parameter, the query unless it says otherwise. -/
def locationOf (store : Store) (id : Nat) : String :=
  store.plain ((store.find? id "in").getD (.text "query"))

/-- The parameter with this mapping. -/
def ofMapping (store : Store) (name location : String) (id : Nat) : Parameter :=
  { name, location
    required := store.truthy (store.get id "required") || location == "path"
    description := store.plainOrEmpty (store.get id "description")
    schema := .value (.mapping id) }

/-- The parameters with one more. It takes the place of the one with its name and location. -/
def merge (p : Parameter) : List Parameter → List Parameter
  | [] => [p]
  | q :: rest =>
    if q.name = p.name && q.location = p.location then p :: rest else q :: merge p rest

/-- The parameters of a list, one for each name and location. -/
def mergeAll (store : Store) (document : Value) :
    List Value → List Parameter → Except SchemaError (List Parameter)
  | [], merged => .ok merged
  | raw :: rest, merged => do
    let (id, name) ← named store document raw
    mergeAll store document rest (merge (ofMapping store name (locationOf store id) id) merged)

/-- The required parameters before the others, each in the order they had. -/
def requiredFirst (ps : List Parameter) : List Parameter :=
  ps.filter (·.required) ++ ps.filter (!·.required)

/-- The parameters of an operation. -/
def collect (store : Store) (pathItem details document : Value) :
    Except Failure (List Parameter) := do
  let shared ← Failure.ofFault (store.member pathItem "parameters" >>= store.iterateOrNone)
  let own ← Failure.ofFault (store.member details "parameters" >>= store.iterateOrNone)
  match mergeAll store document (shared ++ own) [] with
  | .error e => throw (.schema e)
  | .ok merged =>
    let body ← Failure.ofFault (ofBody store details document)
    return requiredFirst (merged ++ body.toList)

end Parameter

end TypedClient

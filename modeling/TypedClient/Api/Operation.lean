import TypedClient.Api.Response
import TypedClient.Text.Blank

/-!
# Operations

Each method of each path is an operation. Operations are built in the order of the document, which
decides which of two equal identifiers gets a number, and are then sorted by group, path and method.
-/

namespace TypedClient

/-- The methods of a path, in order. -/
def httpMethods : List String := ["get", "put", "post", "delete", "options", "head", "patch"]

/-- The group of operations without a tag. -/
def defaultGroup : String := "default"

/-- An operation of an API. -/
structure Operation where
  id : String
  path : String
  method : String
  group : String
  summary : String
  description : String
  parameters : List Parameter
  response : Option SchemaSite
  security : List Value
  deriving DecidableEq, Repr

/-- How often each base of an identifier has come up. -/
abbrev BaseCounts := List (String × Nat)

namespace BaseCounts

/-- A count put in place of the one of the same base, or at the end. -/
def put (base : String) (n : Nat) : BaseCounts → BaseCounts
  | [] => [(base, n)]
  | (b, m) :: rest => if b = base then (b, n) :: rest else (b, m) :: put base n rest

/-- The identifier for a base: the base itself the first time, and with a number later. -/
def unique (counts : BaseCounts) (base : String) : String × BaseCounts :=
  match counts.lookup base with
  | none => (base, put base 1 counts)
  | some n => (base ++ Decimal.digitString (n + 1), put base (n + 1) counts)

end BaseCounts

namespace Operation

/-- The base of an operation's identifier: what the document calls it, or its method and path. -/
def baseId (store : Store) (path : Scalar) (method : String) (details : Nat) : String :=
  let given := store.get details "operationId"
  let raw := if store.truthy given then store.plain given else method ++ "_" ++ path.plain
  Naming.camelCase (Naming.operationSlug raw)

/-- The group of an operation: its first tag. -/
def groupOf (store : Store) (details : Nat) : Except Fault String := do
  let tags := store.get details "tags"
  if store.truthy tags then return store.plain (← store.firstOf tags) else return defaultGroup

/-- A text of the description of an operation, without blanks at its ends. -/
def textOf (store : Store) (details : Nat) (key : String) : String :=
  Text.trimmed (store.plainOrEmpty (store.get details key))

/-- The operation with an identifier. -/
def ofDetails (store : Store) (document : Value) (sharedSecurity : List Value) (path : Scalar)
    (pathItem : Nat) (method : String) (details : Nat) (id : String) :
    Except Failure Operation := do
  let group ← Failure.ofFault (groupOf store details)
  let parameters ← Parameter.collect store (.mapping pathItem) (.mapping details) document
  let response ← Failure.ofFault (Response.success store (.mapping details) document)
  let own := store.get details "security"
  let security ← if own.isNull then pure sharedSecurity else Failure.ofFault (store.iterate own)
  return {
    id, method, group, parameters, response, security
    path := path.plain
    summary := textOf store details "summary"
    description := textOf store details "description" }

/-- A method of a path that is an operation: the key of the path, its mapping, the method and the
mapping of its details. -/
structure Endpoint where
  path : Scalar
  pathItem : Nat
  method : String
  details : Nat
  deriving DecidableEq, Repr

/-- The operations of one path, in order of method. -/
def endpointsOf (store : Store) (entry : Scalar × Value) : List Endpoint :=
  match entry.2 with
  | .mapping item => httpMethods.filterMap fun method =>
    match store.get item method with
    | .mapping details => some ⟨entry.1, item, method, details⟩
    | _ => none
  | _ => []

/-- The operations of all paths, in order of the document. -/
def endpoints (store : Store) (paths : Entries) : List Endpoint :=
  paths.flatMap (endpointsOf store)

/-- The identifiers for bases in order. -/
def uniqueIds : BaseCounts → List String → List String
  | _, [] => []
  | counts, base :: rest =>
    let (id, counts) := counts.unique base
    id :: uniqueIds counts rest

/-- The identifiers of the operations of all paths, in order of the document. -/
def idsOf (store : Store) (found : List Endpoint) : List String :=
  uniqueIds [] (found.map fun e => baseId store e.path e.method e.details)

/-- The position of a method among the methods. -/
def methodIndex (method : String) : Nat := httpMethods.idxOf method

/-- Whether an operation may stand before another one. -/
def precedes (a b : Operation) : Bool :=
  if a.group != b.group then Text.before a.group b.group
  else if a.path != b.path then Text.before a.path b.path
  else methodIndex a.method ≤ methodIndex b.method

/-- The operations of a document, sorted by group, path and method. -/
def build (store : Store) (document : Value) : Except Failure (List Operation) := do
  let sharedSecurity ←
    Failure.ofFault (store.member document "security" >>= store.iterateOrNone)
  let paths ← Failure.ofFault (store.member document "paths" >>= store.entriesOrNone)
  let found := endpoints store paths
  let operations ← (found.zip (idsOf store found)).mapM fun (e, id) =>
    ofDetails store document sharedSecurity e.path e.pathItem e.method e.details id
  return operations.mergeSort precedes

/-- Groups with an operation added to its own, which is new at the end if there is none. -/
def addToGroup (op : Operation) : List (String × List Operation) → List (String × List Operation)
  | [] => [(op.group, [op])]
  | (group, ops) :: rest =>
    if group = op.group then (group, ops ++ [op]) :: rest else (group, ops) :: addToGroup op rest

/-- Operations by group, in the order in which the groups come up. -/
def groups (operations : List Operation) : List (String × List Operation) :=
  operations.foldl (fun found op => addToGroup op found) []

/-- The name of the module of a group. -/
def moduleName (group : String) : String := Naming.camelCase (Naming.slug group defaultGroup)

end Operation

end TypedClient

import TypedClient.Emit.OperationsModule
import TypedClient.Emit.SharedModules
import TypedClient.Emit.SpecModule
import TypedClient.Emit.TypesModule

/-!
# Clients

A client is a list of files: the description of the API, a module for each group of operations, the
types, and for a typed client the enums and the decorators. The registry starts empty, so runs do
not depend on one another.
-/

namespace TypedClient

/-- A generated file: where it goes within the output directory, and its contents. -/
abbrev GeneratedFile := String × String

/-- Files with one more. It takes the place of one with its path. -/
def putFile (path contents : String) : List GeneratedFile → List GeneratedFile
  | [] => [(path, contents)]
  | (p, c) :: rest =>
    if p = path then (p, contents) :: rest else (p, c) :: putFile path contents rest

/-- Files by path, of which later ones win. -/
def putFiles (files : List GeneratedFile) : List GeneratedFile :=
  files.foldl (fun found (path, contents) => putFile path contents found) []

namespace Generation

/-- The name of a file of code. -/
def fileName (g : Generation) (stem : String) : String :=
  stem ++ "." ++ g.options.language.name

/-- The files of the operations, by group. -/
def operationFiles (g : Generation) (groups : List (String × List Operation)) :
    Run (List GeneratedFile) :=
  groups.mapM fun (group, operations) => do
    let contents ← g.operationsModule group operations
    return (g.fileName (Operation.moduleName group), contents)

/-- The files that only a typed client has. -/
def sharedFiles (g : Generation) : Run (List GeneratedFile) := do
  if !g.isTyped then return []
  let declarations := (← get).declarations
  return [("enums.ts", enumsModule g.format declarations),
    ("utils.ts", decoratorsModule g.format)]

/-- The error of a document that lists no paths. -/
def pathsMissing : Failure :=
  .schema (.invalid "document has no 'paths' mapping" (some "paths") none)

/-- The files of a client. -/
def client (g : Generation) (document : Value) : Run (List GeneratedFile) := do
  match ← Run.ofFault (g.store.member document "paths") with
  | .mapping _ => pure ()
  | _ => throw pathsMissing
  modify Registry.reset
  let spec ← Run.ofFault (g.specModule document)
  let operations ← Run.ofResult (Operation.build g.store document)
  let modules ← g.operationFiles (Operation.groups operations)
  let types ← g.typesModule document
  let shared ← g.sharedFiles
  return putFiles ([(g.fileName "gateway/spec", spec)] ++ modules
    ++ [(g.fileName "types", types)] ++ shared)

/-- The outcome of a run from a registry, and the registry after it. -/
def runClient (g : Generation) (document : Value) (registry : Registry) :
    Except Failure (List GeneratedFile) × Registry :=
  (g.client document).run.run registry

end Generation

end TypedClient

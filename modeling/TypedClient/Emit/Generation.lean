import TypedClient.Formatting
import TypedClient.Schema.Resolver

/-!
# Generation runs

A run resolves one schema after the other against one registry of enums. A failure ends the run, and
what was registered before it remains.
-/

namespace TypedClient

/-- Computations that register enums and may fail. -/
abbrev Run := ExceptT Failure (StateM Registry)

namespace Run

/-- A result that has been computed. -/
def ofResult {α : Type} (result : Except Failure α) : Run α := ExceptT.mk (pure result)

/-- A result that only a fault can prevent. -/
def ofFault {α : Type} (result : Except Fault α) : Run α := ofResult (Failure.ofFault result)

end Run

/-- What a run works with: the documents and its options. -/
structure Generation where
  store : Store
  options : ClientOptions

namespace Generation

/-- How the types of a run are written. -/
def config (g : Generation) : ResolverConfig := { strict := g.store.truthy g.options.strict }

/-- The formatting of a run. -/
def format (g : Generation) : Formatting := g.options.formatting g.store

/-- Whether the client is typed. -/
def isTyped (g : Generation) : Bool := g.options.language == .ts

/-- The type of a schema. -/
def typeOf (g : Generation) (mode : ResolutionMode) (site : SchemaSite) : Run String := do
  let r ← Run.ofResult (resolve g.store g.config mode (← get) site)
  set r.registry
  return r.text

/-- The name of a schema's type in comments. -/
def docTypeOf (g : Generation) (site : SchemaSite) : Run String :=
  Run.ofResult (documentType g.store g.config site)

end Generation

/-- Lines, each with a line break after it. -/
def unlines (lines : List String) : String := String.join (lines.map (· ++ "\n"))

/-- The line by which generated files are known. -/
def generatedMarker : String := "// Auto-generated, edits will be overwritten"

/-- A description after what it describes, if there is one. -/
def trailing (description : String) : String :=
  if description = "" then "" else " " ++ description

/-- A name in comments, in brackets if it may be left out. -/
def optionalName (required : Bool) (name : String) : String :=
  if required then name else "[" ++ name ++ "]"

end TypedClient

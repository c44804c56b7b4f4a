import TypedClient.Api.Definition
import TypedClient.Emit.Generation
import TypedClient.Emit.ObjectLiteral

/-!
# The module that describes the API

What a running client has to know: where the API is, what it accepts, and how it is authorized. The
options of a run win over the document.
-/

namespace TypedClient

namespace Generation

/-- What a running client has to know of the API, in order. -/
def apiEntries (g : Generation) (document : Value) : Except Fault (List (Scalar × Tree)) := do
  let entry (key : String) := g.store.member document key
  let orEmpty (v : Value) : Tree := if g.store.truthy v then g.store.tree v else .sequence []
  let schemes (components : Value) : Value := match components with
    | .mapping id => g.store.get id "securitySchemes"
    | _ => .null
  let security := g.store.either g.options.securityDefinitions
    (g.store.either (← entry "securityDefinitions") (schemes (← entry "components")))
  return [
    (.text "host", g.store.tree (g.store.either g.options.host (← entry "host"))),
    (.text "schemes", g.store.tree (g.store.either g.options.schemes (← entry "schemes"))),
    (.text "basePath", g.store.tree (← entry "basePath")),
    (.text "contentTypes", orEmpty (← entry "consumes")),
    (.text "accepts", orEmpty (← entry "produces")),
    (.text "securityDefinitions", g.store.tree security),
    (.text "timeout", g.store.tree g.options.timeout)]

/-- The module that describes the API. -/
def specModule (g : Generation) (document : Value) : Except Fault String := do
  let view ← g.format.objectLiteral (← g.apiEntries document)
  let finish := g.format.terminator
  let reference := if g.isTyped then ["/// <reference path=\"../types.ts\"/>"] else []
  let annotation := if g.isTyped then ": api.OpenApiSpec" else ""
  return unlines (reference ++ [
    generatedMarker,
    "let spec" ++ annotation ++ " = " ++ view ++ finish,
    "spec.getAuthorization = " ++ g.store.plain g.options.getAuthorization,
    "spec.applyAuthorization = " ++ g.store.plain g.options.applyAuthorization,
    "export default spec" ++ finish])

end Generation

end TypedClient

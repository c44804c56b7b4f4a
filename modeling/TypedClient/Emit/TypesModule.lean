import TypedClient.Api.Definition
import TypedClient.Emit.Generation
import TypedClient.Naming.Identifier

/-!
# The module of all types

Each definition of a document becomes a type: an interface if it lists properties, and another name
for what its schema resolves to if it does not. An untyped client has the same as comments.
-/

namespace TypedClient

/-- A property as it is written. -/
structure PropertyView where
  name : String
  required : Bool
  description : String
  type : String
  docType : String
  deriving DecidableEq, Repr

/-- What a definition stands for. -/
inductive DefinitionBody where
  /-- Another type, and its name in comments. -/
  | alias (type docType : String)
  | interface (properties : List PropertyView)
  deriving DecidableEq, Repr

/-- A definition as it is written. -/
structure DefinitionView where
  name : String
  description : String
  body : DefinitionBody
  deriving DecidableEq, Repr

/-- A comment of one description, if there is one. -/
def describedBy (indent description : String) : List String :=
  if description = "" then []
  else [indent ++ "/**", indent ++ " * " ++ description, indent ++ " */"]

/-- The lines of a property in an interface. -/
def PropertyView.typed (format : Formatting) (p : PropertyView) : List String :=
  let indent := format.unit ++ format.unit
  describedBy indent p.description ++ [
    indent ++ Naming.propertyKey p.name ++ (if p.required then "" else "?") ++ ": " ++ p.type
      ++ format.terminator]

/-- A property in a comment. -/
def PropertyView.docLine (p : PropertyView) : String :=
  " * @property \x7b" ++ p.docType ++ "\x7d " ++ optionalName p.required p.name
    ++ trailing p.description

namespace DefinitionView

/-- The lines of a definition in a typed client. -/
def typed (format : Formatting) (d : DefinitionView) : List String :=
  let indent := format.unit
  [""] ++ describedBy indent d.description ++ match d.body with
    | .alias type _ => [indent ++ "export type " ++ d.name ++ " = " ++ type ++ format.terminator]
    | .interface properties => [indent ++ "export interface " ++ d.name ++ " \x7b"]
      ++ properties.flatMap (PropertyView.typed format) ++ [indent ++ "\x7d"]

/-- The lines of a definition in an untyped client. -/
def untyped (d : DefinitionView) : List String :=
  let (shown, properties) := match d.body with
    | .alias _ docType => ("\x7b" ++ docType ++ "\x7d ", [])
    | .interface properties => ("", properties)
  ["", "/**"]
    ++ (if d.description = "" then [] else [" * " ++ d.description, " *"])
    ++ [" * @typedef " ++ shown ++ d.name, " * @memberof module:types"]
    ++ properties.map PropertyView.docLine ++ [" */"]

end DefinitionView

/-- The members of the interface of the module that describes the API. -/
def specInterface : List String :=
  ["host?: string", "schemes?: string[]", "basePath?: string", "contentTypes: string[]",
   "accepts: string[]", "securityDefinitions?: \x7b[key: string]: any\x7d", "timeout?: number",
   "getAuthorization?: (security: any, securityDefinitions: any, op: any) => Promise<any>",
   "applyAuthorization?: (req: any, auth: any) => any"]

namespace Generation

/-- The names that a schema requires, of which a pair is none of a property. They have to be such as
can be keys. -/
def requiredNames (g : Generation) (schema : Nat) : Except Fault (List Scalar) := do
  let names ← g.store.iterateOrNone (g.store.get schema "required")
  if names.all g.store.isKey then return names.filterMap Value.scalar? else throw .unhashable

/-- The view of a property. -/
def propertyView (g : Generation) (required : List Scalar) (entry : Scalar × Value) :
    Run PropertyView := do
  let raw := match entry.2 with
    | .mapping id => g.store.get id "description"
    | _ => .null
  let description ← Run.ofFault (g.format.description g.store raw)
  let type ← g.typeOf .typesModule (.value entry.2)
  let docType ← g.docTypeOf (.value entry.2)
  return {
    description, type, docType
    name := entry.1.plain
    required := required.any entry.1.sameKey }

/-- The view of a definition without properties. -/
def aliasView (g : Generation) (schema : Value) : Run DefinitionBody := do
  let type ← g.typeOf .typesModule (.value schema)
  let docType ← g.docTypeOf (.value schema)
  return .alias type docType

/-- The view of a definition. -/
def definitionView (g : Generation) (entry : Scalar × Value) : Run DefinitionView := do
  let name := entry.1.plain
  match entry.2 with
  | .mapping id =>
    let description ← Run.ofFault (g.format.description g.store (g.store.get id "description"))
    match g.store.get id "properties" with
    | .mapping properties =>
      let required ← Run.ofFault (g.requiredNames id)
      let views ← (g.store.entries properties).mapM (g.propertyView required)
      return ⟨name, description, .interface views⟩
    | _ => return ⟨name, description, ← g.aliasView entry.2⟩
  | schema => return ⟨name, "", ← g.aliasView schema⟩

/-- The types of a typed client. -/
def typedDefinitions (format : Formatting) (views : List DefinitionView) : String :=
  let indent := format.unit
  unlines (
    ["/// <reference path=\"enums.ts\"/>", generatedMarker, "namespace api \x7b",
      indent ++ "export interface OpenApiSpec \x7b"]
    ++ specInterface.map (fun line => indent ++ indent ++ line ++ format.terminator)
    ++ [indent ++ "\x7d"] ++ views.flatMap (DefinitionView.typed format) ++ ["\x7d"])

/-- The types of an untyped client. -/
def untypedDefinitions (views : List DefinitionView) : String :=
  unlines (["/** @module types */", generatedMarker] ++ views.flatMap DefinitionView.untyped)

/-- The module of all types. -/
def typesModule (g : Generation) (document : Value) : Run String := do
  let entries ← Run.ofFault (definitions g.store document)
  let views ← entries.mapM g.definitionView
  return if g.isTyped then typedDefinitions g.format views else untypedDefinitions views

end Generation

end TypedClient

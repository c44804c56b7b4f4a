import TypedClient.Document.JsonText
import TypedClient.Schema.Node

/-!
# Enums as declarations

An inline enum becomes a type that is the union of its literals.
-/

namespace TypedClient

/-- One literal. Null is bare, text is always quoted, and anything else is quoted in an enum of
texts only. -/
def EnumKind.literal (store : Store) (kind : EnumKind) : Value → Except Fault String
  | .scalar .null => .ok "null"
  | .scalar (.text s) => .ok (Text.singleQuoted s)
  | v => do
    let text ← store.json v
    return if kind = .string then Text.singleQuoted text else text

/-- The declaration of a type as the union of literals. -/
def unionDeclaration (name : String) (members : List String) : String :=
  "export type " ++ name ++ " = " ++ " | ".intercalate members

/-- The declaration of an enum under a name. -/
def EnumSchema.declaration (store : Store) (name : String) (schema : EnumSchema) :
    Except Fault String := do
  let members ← schema.literals.mapM (schema.kind.literal store)
  return unionDeclaration name members

end TypedClient

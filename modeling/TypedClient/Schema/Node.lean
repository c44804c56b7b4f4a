import TypedClient.Document.Display
import TypedClient.Fault
import TypedClient.Naming.Words

/-!
# Schema nodes

What a schema says is decided by the keys that its mapping has. `classify` looks them up in a fixed
order of precedence, enum, reference, wrapper, array, object, other type, and gives exactly one
variant.
-/

namespace TypedClient

/-- How the literals of an enum are written. -/
inductive EnumKind where
  | string
  | numeric
  | boolean
  deriving DecidableEq, Repr

/-- Whether a type is one of numbers. -/
def isNumericType (type : String) : Bool := type == "integer" || type == "number"

/-- The kind that the declared type of an enum calls for. -/
def EnumKind.ofType (declared : Option String) : EnumKind :=
  match declared with
  | none => .string
  | some type =>
    if isNumericType type then .numeric else if type = "boolean" then .boolean else .string

/-- An inline enum: its literals, how to write them, and what the schema says beside them. -/
structure EnumSchema where
  literals : List Value
  kind : EnumKind
  type : Option String
  format : Value
  deriving DecidableEq, Repr

/-- What a schema says. -/
inductive SchemaNode where
  /-- There is no schema. -/
  | absent
  | enumeration (schema : EnumSchema)
  | reference (target : String)
  /-- A parameter or response that has its schema under a key. -/
  | wrapped (schema : Value)
  | array (items : Value)
  /-- An object whose values have a schema. -/
  | map (values : Value)
  | object
  | primitive (type : String) (format : Value)
  /-- Nothing that determines a type. -/
  | untyped
  deriving DecidableEq, Repr

namespace SchemaNode

/-- The type that a schema declares. Of several types the first other than null counts. -/
def declaredType (store : Store) (entries : Entries) : Option String :=
  let declared := match entries.get "type" with
    | .sequence id => ((store.items id).find? (· != .text "null")).getD .null
    | .typed .pair id => ((store.items id).find? (· != .text "null")).getD .null
    | v => v
  if declared == .null || declared == .text "" then none else some (store.plain declared)

/-- The elements of a sequence or a pair, none for any other value. -/
def elements (store : Store) : Value → List Value
  | .sequence id => store.items id
  | .typed .pair id => store.items id
  | _ => []

/-- The variant of a schema with these entries and no enum. -/
def classifyPlain (entries : Entries) (type : Option String) : SchemaNode :=
  match (entries.get "$ref").text?.filter (· != "") with
  | some target => .reference target
  | none =>
    if !(entries.get "schema").isNull then .wrapped (entries.get "schema")
    else match type with
      | none => .untyped
      | some "array" => .array (entries.get "items")
      | some "object" =>
        let values := entries.get "additionalProperties"
        if values == .null || values == .bool false then .object else .map values
      | some name => .primitive name (entries.get "format")

/-- The variant of a schema with these entries. -/
def classifyEntries (store : Store) (entries : Entries) : SchemaNode :=
  let type := declaredType store entries
  match elements store (entries.get "enum") with
  | [] => classifyPlain entries type
  | literals => .enumeration ⟨literals, .ofType type, type, entries.get "format"⟩

/-- The variant of a schema. -/
def classify (store : Store) : Value → SchemaNode
  | .mapping id => classifyEntries store (store.entries id)
  | .scalar .null => .absent
  | .scalar (.bool false) => .absent
  | _ => .untyped

/-- Whether the items of an array have a type or a reference of their own. -/
def areItemsTyped (store : Store) : Value → Bool
  | .mapping id => store.truthy (store.get id "type") || store.truthy (store.get id "$ref")
  | _ => false

/-- Whether a type with a format is one of dates. A format can only be looked up if it is a scalar or
a set. -/
def isDate (type : String) (format : Value) : Except Fault Bool :=
  if type != "string" then .ok false
  else match format with
    | .scalar s => .ok (s == .text "date" || s == .text "date-time")
    | .typed .set _ => .ok false
    | _ => .error .unhashable

end SchemaNode

end TypedClient

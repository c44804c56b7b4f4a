import TypedClient.Naming.EnumName
import TypedClient.Schema.EnumText
import TypedClient.Schema.Registry

/-!
# From schemas to types

Resolving a schema has two halves. `descend` walks from the schema down to the one that determines
the type: through wrappers, into the items of arrays and the values of maps. It ends with the layers
that it passed and a leaf, or with an error if it goes too deep or meets a mapping that it is
already inside. Then the leaf is written as a type, and the layers are written around it from the
inside out.

There are two renderings. `resolve` gives the type for the code and registers an enum at the leaf;
`documentType` gives the coarser name for comments, which does not enter maps and never touches the
registry.
-/

namespace TypedClient

/-- Where a type will stand: within the module of all types, names need no namespace. -/
inductive ResolutionMode where
  | default
  | typesModule
  deriving DecidableEq, Repr

/-- How types are written and what is tolerated. -/
structure ResolverConfig where
  typesNamespace : String := "api"
  enumsNamespace : String := "enums"
  docTypesNamespace : String := "module:types"
  strict : Bool := false
  maxDepth : Int := 64
  deriving DecidableEq, Repr

/-- A name within a namespace, which may be empty. -/
def qualify (space name : String) : String :=
  if space = "" then name else space ++ "." ++ name

/-- What a descent passes through. -/
inductive Layer where
  | wrapper
  | array
  | map
  deriving DecidableEq, Repr

/-- What a descent ends at. -/
inductive Leaf where
  | absent
  | enumeration (schema : EnumSchema)
  | reference (target : String)
  /-- An array whose items have no type of their own. -/
  | untypedArray
  /-- A map that is not entered. -/
  | closedMap
  | object
  | primitive (type : String) (format : Value)
  | untyped
  deriving DecidableEq, Repr

/-- What to do at a node: to go on below a layer, or to end. -/
inductive Step where
  | enter (layer : Layer) (next : Value)
  | stop (leaf : Leaf)
  deriving DecidableEq, Repr

/-- The step at a node, maps being entered or not. -/
def SchemaNode.step (store : Store) (enterMaps : Bool) : SchemaNode → Step
  | .absent => .stop .absent
  | .enumeration schema => .stop (.enumeration schema)
  | .reference target => .stop (.reference target)
  | .wrapped schema => .enter .wrapper schema
  | .array items => if areItemsTyped store items then .enter .array items else .stop .untypedArray
  | .map values => if enterMaps then .enter .map values else .stop .closedMap
  | .object => .stop .object
  | .primitive type format => .stop (.primitive type format)
  | .untyped => .stop .untyped

/-- A completed descent: its layers from the outside in, and its leaf. -/
structure Descent where
  layers : List Layer
  leaf : Leaf
  deriving DecidableEq, Repr

/-- A descent below one more layer. -/
def Descent.below (layer : Layer) (d : Descent) : Descent := { d with layers := layer :: d.layers }

/-- The descent from a value at a depth. `budget` levels are left, and `active` are the mappings
that the value lies inside. -/
def descend (store : Store) (enterMaps : Bool) :
    (budget : Nat) → (active : List Nat) → (depth : Nat) → Value → Except SchemaError Descent
  | 0, _, depth, _ => .error (.cyclic depth none)
  | budget + 1, active, depth, v =>
    if v.mapping?.any active.contains then .error (.cyclic depth none)
    else match (SchemaNode.classify store v).step store enterMaps with
      | .stop leaf => .ok ⟨[], leaf⟩
      | .enter layer next =>
        (descend store enterMaps budget (v.mapping?.toList ++ active) (depth + 1) next).map
          (.below layer)

/-- Where a schema is found. -/
inductive SchemaSite where
  /-- A value of the document. -/
  | value (v : Value)
  /-- The schema of a media type, presented like a parameter that wraps it. -/
  | content (schema : Value)
  deriving DecidableEq, Repr

/-- The descent from a site. A wrapper that is not part of the document takes a level too. -/
def descendSite (store : Store) (enterMaps : Bool) (budget : Nat) :
    SchemaSite → Except SchemaError Descent
  | .value v => descend store enterMaps budget [] 0 v
  | .content schema =>
    match budget with
    | 0 => .error (.cyclic 0 none)
    | budget + 1 =>
      if schema.isNull then .ok ⟨[], .untyped⟩
      else (descend store enterMaps budget [] 1 schema).map (.below .wrapper)

/-- The number of levels that a descent may visit. -/
def ResolverConfig.budget (config : ResolverConfig) : Nat := (config.maxDepth + 1).toNat

/-- A type within a layer. -/
def Layer.around (layer : Layer) (type : String) : String :=
  match layer with
  | .wrapper => type
  | .array => type ++ "[]"
  | .map => "\x7b[key: string]: " ++ type ++ "\x7d"

/-- A type within layers. -/
def Layer.aroundAll (layers : List Layer) (type : String) : String :=
  layers.foldr Layer.around type

/-- The refusal of arrays without types. -/
def untypedItems : SchemaError :=
  .unresolvable "array items declare neither type nor $ref" none

/-- A string type with its format. -/
def stringType (format : Value) : Except Fault String :=
  (SchemaNode.isDate "string" format).map fun isDate => if isDate then "Date" else "String"

/-- The type of a primitive. -/
def primitiveType (type : String) (format : Value) : Except Fault String :=
  if isNumericType type then .ok "Number"
  else if type = "string" then stringType format
  else .ok (if type = "boolean" then "Boolean" else type)

/-- The name of a primitive in comments: only integers and texts are named by their classes. -/
def primitiveDocType (type : String) (format : Value) : Except Fault String :=
  if type = "integer" then .ok "Number"
  else if type = "string" then stringType format
  else .ok type

/-- A type, with what writing it did to the registry. -/
structure Resolution where
  text : String
  registry : Registry
  collision : Option EnumCollision := none
  deriving DecidableEq, Repr

/-- The type of an enum, which is registered. -/
def EnumSchema.resolve (store : Store) (config : ResolverConfig) (registry : Registry)
    (schema : EnumSchema) : Except Failure Resolution := do
  let name ← Failure.ofFault (Naming.enumName store schema.literals)
  let declaration ← Failure.ofFault (schema.declaration store name)
  match registry.insert name declaration with
  | .ok (registry, collision) => return ⟨qualify config.enumsNamespace name, registry, collision⟩
  | .error e => throw (.schema e)

/-- The name of a reference where it will stand. -/
def referenceType (config : ResolverConfig) (mode : ResolutionMode) (target : String) : String :=
  match mode with
  | .typesModule => Naming.referenceName target
  | .default => qualify config.typesNamespace (Naming.referenceName target)

/-- The type of a leaf. -/
def Leaf.resolve (store : Store) (config : ResolverConfig) (mode : ResolutionMode)
    (registry : Registry) : Leaf → Except Failure Resolution
  | .absent => .ok ⟨"Object", registry, none⟩
  | .enumeration schema => schema.resolve store config registry
  | .reference target => .ok ⟨referenceType config mode target, registry, none⟩
  | .untypedArray =>
    if config.strict then .error (.schema untypedItems) else .ok ⟨"Object[]", registry, none⟩
  | .closedMap => .ok ⟨"Object", registry, none⟩
  | .object => .ok ⟨"Object", registry, none⟩
  | .primitive type format => do
    let text ← Failure.ofFault (primitiveType type format)
    return ⟨text, registry, none⟩
  | .untyped => .ok ⟨"any", registry, none⟩

/-- The name of a leaf in comments. -/
def Leaf.documentType (config : ResolverConfig) : Leaf → Except Failure String
  | .absent => .ok "Object"
  | .enumeration schema =>
    match schema.type with
    | none => .ok "object"
    | some type => Failure.ofFault (primitiveDocType type schema.format)
  | .reference target => .ok (qualify config.docTypesNamespace (Naming.referenceName target))
  | .untypedArray => if config.strict then .error (.schema untypedItems) else .ok "object[]"
  | .closedMap => .ok "object"
  | .object => .ok "object"
  | .primitive type format => Failure.ofFault (primitiveDocType type format)
  | .untyped => .ok "object"

/-- The type of a schema. -/
def resolve (store : Store) (config : ResolverConfig) (mode : ResolutionMode)
    (registry : Registry) (site : SchemaSite) : Except Failure Resolution :=
  match descendSite store true config.budget site with
  | .error e => .error (.schema e)
  | .ok d => do
    let r ← d.leaf.resolve store config mode registry
    return { r with text := Layer.aroundAll d.layers r.text }

/-- The name of a schema's type in comments. -/
def documentType (store : Store) (config : ResolverConfig) (site : SchemaSite) :
    Except Failure String :=
  match descendSite store false config.budget site with
  | .error e => .error (.schema e)
  | .ok d => do
    let text ← d.leaf.documentType config
    return Layer.aroundAll d.layers text

end TypedClient

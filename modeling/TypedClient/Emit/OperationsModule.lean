import TypedClient.Api.Operation
import TypedClient.Emit.Generation
import TypedClient.Emit.ObjectLiteral

/-!
# Modules of operations

Each group of operations has a module. A typed client has a class with a method for each operation,
an untyped one a function; both end with a descriptor of each operation. The views hold what the
texts are put together from.
-/

namespace TypedClient

/-- The decorator that records the type of a parameter. -/
def logParameter (type : String) : String :=
  let cs := type.toList
  match cs.reverse with
  | ']' :: '[' :: element =>
    "@logParameter('" ++ String.ofList element.reverse ++ "', true)"
  | _ => "@logParameter('" ++ type ++ "')"

/-- A parameter as it is written. -/
structure ParameterView where
  name : String
  key : String
  binding : String
  location : String
  required : Bool
  description : String
  type : String
  docType : String
  deriving DecidableEq, Repr

namespace ParameterView

/-- The decorators of a parameter. -/
def decorators (p : ParameterView) : String :=
  (if p.required then "" else "@optional ") ++ logParameter p.type

/-- A parameter of a method. -/
def typed (p : ParameterView) : String :=
  p.decorators ++ " " ++ p.binding ++ (if p.required then "" else "?") ++ ": " ++ p.type

/-- A parameter in a comment. -/
def docLine (p : ParameterView) : String :=
  " * @param \x7b" ++ p.docType ++ "\x7d " ++ optionalName p.required p.binding
    ++ trailing p.description

/-- A parameter in the descriptor of its operation. -/
def descriptor (p : ParameterView) : Tree :=
  .mapping [(.text "name", .text p.name), (.text "in", .text p.location),
    (.text "required", .bool p.required)]

end ParameterView

/-- An operation as it is written. -/
structure OperationView where
  id : String
  summary : String
  description : String
  parameters : List ParameterView
  returnType : String
  docReturnType : String
  descriptor : String
  deriving DecidableEq, Repr

namespace OperationView

/-- The comment of an operation. -/
def docComment (op : OperationView) (indent : String) : String :=
  let summary := if op.summary = "" then [] else [" * " ++ op.summary]
  let description := if op.description = "" then [] else [" *", " * " ++ op.description]
  let parameters :=
    if op.parameters.isEmpty then [] else " *" :: op.parameters.map ParameterView.docLine
  unlines ((["/**"] ++ summary ++ description ++ parameters
    ++ [" * @return \x7bPromise<" ++ op.docReturnType ++ ">\x7d", " */"]).map (indent ++ ·))

/-- The arguments of an operation as an object. -/
def arguments (op : OperationView) : String :=
  if op.parameters.isEmpty then "\x7b\x7d"
  else "\x7b " ++ ", ".intercalate (op.parameters.map fun p => p.key ++ ": " ++ p.binding)
    ++ " \x7d"

/-- The call that carries an operation out. -/
def request (op : OperationView) (format : Formatting) : String :=
  "gateway.request(" ++ op.id ++ "Operation, " ++ op.arguments ++ ")" ++ format.terminator

/-- The method of an operation. -/
def method (op : OperationView) (format : Formatting) : String :=
  op.docComment format.unit ++ unlines [
    format.unit ++ op.id ++ "(" ++ ", ".intercalate (op.parameters.map ParameterView.typed)
      ++ "): Promise<" ++ op.returnType ++ "> \x7b",
    format.unit ++ format.unit ++ "return " ++ op.request format,
    format.unit ++ "\x7d"]

/-- The function of an operation. -/
def function (op : OperationView) (format : Formatting) : String :=
  op.docComment "" ++ unlines [
    "export function " ++ op.id ++ "(" ++ ", ".intercalate (op.parameters.map (·.binding))
      ++ ") \x7b",
    format.unit ++ "return " ++ op.request format,
    "\x7d"]

/-- The constant that holds the descriptor of an operation. -/
def descriptorConstant (op : OperationView) (format : Formatting) : String :=
  "\nconst " ++ op.id ++ "Operation = " ++ op.descriptor ++ format.terminator ++ "\n"

end OperationView

namespace Generation

/-- The view of a parameter. -/
def parameterView (g : Generation) (p : Parameter) : Run ParameterView := do
  let type ← g.typeOf .default p.schema
  let docType ← g.docTypeOf p.schema
  return {
    type, docType
    name := p.name
    key := Naming.propertyKey p.name
    binding := p.binding
    location := p.location
    required := p.required
    description := g.format.comment p.description }

/-- The type of what an operation returns, and its name in comments. -/
def returnTypes (g : Generation) : Option SchemaSite → Run (String × String)
  | none => return ("void", "void")
  | some site => do
    let type ← g.typeOf .default site
    let docType ← g.docTypeOf site
    return (type, docType)

/-- What the descriptor of an operation holds. -/
def descriptorEntries (g : Generation) (op : Operation) (parameters : List ParameterView) :
    List (Scalar × Tree) :=
  let security := if op.security.isEmpty then Tree.null
    else .sequence (op.security.map g.store.tree)
  [(.text "path", .text op.path), (.text "method", .text op.method),
   (.text "parameters", .sequence (parameters.map ParameterView.descriptor)),
   (.text "security", security)]

/-- The view of an operation. -/
def operationView (g : Generation) (op : Operation) : Run OperationView := do
  let parameters ← op.parameters.mapM g.parameterView
  let (returnType, docReturnType) ← g.returnTypes op.response
  let descriptor ← Run.ofFault (g.format.objectLiteral (g.descriptorEntries op parameters))
  return {
    parameters, returnType, docReturnType, descriptor
    id := op.id
    summary := g.format.comment op.summary
    description := g.format.comment op.description }

/-- The name of the class of a group. -/
def className (group : String) : String :=
  Naming.pascalCase (Operation.moduleName group) ++ "Api"

/-- The module of a group of a typed client. -/
def typedOperations (format : Formatting) (group : String) (views : List OperationView) :
    String :=
  unlines [
    "/// <reference path=\"types.ts\"/>",
    "/** @module " ++ Operation.moduleName group ++ " */",
    generatedMarker,
    "import * as gateway from './gateway'" ++ format.terminator,
    "import \x7b operations, optional, logParameter \x7d from './utils'" ++ format.terminator,
    "",
    "@operations",
    "export class " ++ className group ++ " \x7b"]
  ++ "\n".intercalate (views.map (·.method format))
  ++ "\x7d\n"

/-- The module of a group of an untyped client. -/
def untypedOperations (format : Formatting) (group : String) (views : List OperationView) :
    String :=
  unlines [
    "/** @module " ++ Operation.moduleName group ++ " */",
    generatedMarker,
    "import * as gateway from './gateway'" ++ format.terminator]
  ++ String.join (views.map fun op => "\n" ++ op.function format)

/-- The module of a group of operations. -/
def operationsModule (g : Generation) (group : String) (operations : List Operation) :
    Run String := do
  let views ← operations.mapM g.operationView
  let code := if g.isTyped then typedOperations g.format group views
    else untypedOperations g.format group views
  return code ++ String.join (views.map (·.descriptorConstant g.format))

end Generation

end TypedClient

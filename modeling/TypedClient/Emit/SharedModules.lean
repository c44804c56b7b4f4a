import TypedClient.Emit.Generation

/-!
# The modules of enums and decorators

A typed client has two more modules: one with the enums that were registered on the way, and one
with the decorators that its classes use, which is always the same.
-/

namespace TypedClient

/-- The module of enums. -/
def enumsModule (format : Formatting) (declarations : List String) : String :=
  unlines ([generatedMarker, "namespace enums \x7b"]
    ++ declarations.map (fun d => format.unit ++ d ++ format.terminator) ++ ["\x7d"])

/-- The lines of the module of decorators, each after its level of indentation. -/
def decoratorLines : List (Nat × String) :=
  [(0, generatedMarker),
   (0, "import 'reflect-metadata'"),
   (0, ""),
   (0, "export function operations(target: any) \x7b"),
   (1, "Reflect.defineMetadata('classType', 'operations', target)"),
   (0, "\x7d"),
   (0, ""),
   (0, "export function optional(target: any, key: string, index?: number) \x7b"),
   (1, "let metadata = Reflect.getMetadata(key, target) || []"),
   (1, "let current = \x7b index: index, optional: true \x7d"),
   (1, "let elId = metadata.findIndex(el => el.index === index)"),
   (1, "if (elId !== -1) metadata[elId] = \x7b ...metadata[elId], ...current \x7d"),
   (1, "else metadata.push(current)"),
   (1, "Reflect.defineMetadata(key, metadata, target)"),
   (0, "\x7d"),
   (0, ""),
   (0, "export function logParameter(type: Object, isArray: boolean = false) \x7b"),
   (1, "return function (target: any, key: string, index?: number) \x7b"),
   (2, "let metadata = Reflect.getMetadata(key, target) || []"),
   (2, "let current = \x7b index: index, type: type, isArray: isArray \x7d"),
   (2, "let elId = metadata.findIndex(el => el.index === index)"),
   (2, "if (elId !== -1) metadata[elId] = \x7b ...metadata[elId], ...current \x7d"),
   (2, "else metadata.push(current)"),
   (2, "Reflect.defineMetadata(key, metadata, target)"),
   (1, "\x7d"),
   (0, "\x7d")]

/-- The module of decorators. -/
def decoratorsModule (format : Formatting) : String :=
  unlines (decoratorLines.map fun (level, line) =>
    String.join (List.replicate level format.unit) ++ line)

end TypedClient

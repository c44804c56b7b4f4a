/-!
# The overview of the command line

What is printed when no command is given.
-/

namespace TypedClient.CommandLine

/-- The lines of the overview. -/
def overviewLines : List String :=
  ["",
   "Client generator CLI.",
   "",
   "Usage:",
   "    python -m client_codegen <command> [options]",
   "",
   "Commands:",
   "    generate    Generate client modules from an API document",
   "    resolve     Resolve one inline schema and print its type expression",
   "    clean       Remove generated client modules",
   "",
   "Examples:",
   "    python -m client_codegen generate petstore.yaml --out-dir src/api",
   "    python -m client_codegen generate https://petstore.swagger.io/v2/swagger.json --language js",
   "    python -m client_codegen resolve '\x7b\"type\": \"array\", \"items\": \x7b\"$ref\": \"#/definitions/Pet\"\x7d\x7d'",
   "    python -m client_codegen clean src/api --dry-run",
   "",
   "Available commands:",
   "  generate     Generate client modules from an API document",
   "  resolve      Resolve one inline schema and print its type expression",
   "  clean        Remove generated client modules",
   "",
   "Use '<command> --help' for command-specific options."]

/-- The overview. -/
def overview : String := String.join (overviewLines.map (· ++ "\n"))

end TypedClient.CommandLine

import TypedClient.Document.JsonText
import TypedClient.Formatting

/-!
# Object literals

Data within the generated code is written as JSON over several lines, with single quotes for double
ones and with every pair of spaces replaced by a level of indentation. Absent entries are left out.
-/

namespace TypedClient.Formatting

/-- JSON text in the quotes and the indentation of the generated code. -/
def restyle (format : Formatting) (json : String) : String :=
  String.ofList (Text.replacePair ' ' ' ' format.unit.toList
    (Text.replaceChar Text.doubleQuote [Text.apostrophe] json.toList))

/-- The entries that are present, as an object literal. -/
def objectLiteral (format : Formatting) (entries : List (Scalar × Tree)) : Except Fault String := do
  let json ← (Tree.mapping (entries.filter fun (_, t) => !t.isNull)).jsonIndented
  return format.restyle json

end TypedClient.Formatting

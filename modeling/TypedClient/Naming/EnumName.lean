import TypedClient.Document.JsonText
import TypedClient.Naming.Identifier

/-!
# Names of enums

An enum has no name of its own in a document. Its name is derived from its literals: their texts in
order, less every character that a name cannot have.
-/

namespace TypedClient.Naming

/-- A literal as far as names are concerned: text as it is, anything else as JSON. -/
def literalText (store : Store) : Value → Except Fault String
  | .scalar (.text s) => .ok s
  | v => store.json v

/-- The name that the texts of literals give. -/
def enumNameOfTexts (texts : List String) : String :=
  match (texts.flatMap String.toList).filter isNamePart with
  | [] => "Enum"
  | c :: rest => String.ofList (if c.isDigit then '_' :: c :: rest else c :: rest)

/-- The name of an enum with these literals. -/
def enumName (store : Store) (literals : List Value) : Except Fault String := do
  let texts ← literals.mapM (literalText store)
  return enumNameOfTexts texts

end TypedClient.Naming

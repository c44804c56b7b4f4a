import TypedClient.Text.Edit

/-!
# Identifiers of the generated code

What may stand as a name in the generated code. `isIdentifier` is the shape of a name,
`safeIdentifier` makes a legal binding out of any text, and `propertyKey` writes any text as the key
of an object literal.
-/

namespace TypedClient.Naming

/-- The words that cannot be names. -/
def reservedWords : List String :=
  ["break", "case", "catch", "class", "const", "continue", "debugger", "default", "delete", "do",
   "else", "enum", "export", "extends", "false", "finally", "for", "function", "if", "import",
   "in", "instanceof", "new", "null", "return", "super", "switch", "this", "throw", "true", "try",
   "typeof", "var", "void", "while", "with"]

/-- Whether a name may start with a character. -/
def isNameStart (c : Char) : Bool := c.isAlpha || c = '_' || c = '$'

/-- Whether a name may go on with a character. -/
def isNamePart (c : Char) : Bool := c.isAlphanum || c = '_' || c = '$'

/-- Whether a text has the shape of a name. -/
def isIdentifier : List Char → Bool
  | [] => false
  | c :: rest => isNameStart c && rest.all isNamePart

/-- Whether a name is legal: it has the shape of one and is not reserved. -/
def isLegalName (s : String) : Bool := isIdentifier s.toList && !reservedWords.contains s

/-- A text of name characters with an underscore before it unless it can start a name. -/
def withNameStart : List Char → List Char
  | [] => ['_']
  | c :: rest => if c.isDigit then '_' :: c :: rest else c :: rest

/-- A legal name as near to a text as can be: what cannot be part of a name becomes an underscore,
and a reserved word gains one. -/
def safeIdentifier (s : String) : String :=
  let cleaned := String.ofList
    (withNameStart (s.toList.map fun c => if isNamePart c then c else '_'))
  if reservedWords.contains cleaned then cleaned ++ "_" else cleaned

/-- Whether a text stands as the key of an object literal without quotes. One line break after a
name does no harm there. -/
def isPlainKey (cs : List Char) : Bool :=
  isIdentifier cs || cs.getLast? == some '\n' && isIdentifier cs.dropLast

/-- A text as the key of an object literal. -/
def propertyKey (s : String) : String :=
  if isPlainKey s.toList then s else Text.singleQuoted s

end TypedClient.Naming

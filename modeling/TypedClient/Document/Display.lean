import TypedClient.Document.Tree

/-!
# Values as text

A value as messages quote it, and as plain text. The two differ for text, which is verbatim as plain
text, and for dates; inside a collection everything is quoted.
-/

namespace TypedClient

mutual

/-- A tree as messages quote it. -/
def Tree.quoted : Tree → String
  | .scalar s => s.quoted
  | .sequence items => "[" ++ ", ".intercalate (quotedItems items) ++ "]"
  | .mapping entries => "\x7b" ++ ", ".intercalate (quotedEntries entries) ++ "\x7d"
  | .typed .pair items => "(" ++ ", ".intercalate (quotedItems items) ++ ")"
  | .typed .set [] => "set()"
  | .typed .set items => "\x7b" ++ ", ".intercalate (quotedItems items) ++ "\x7d"
  | .sequenceAgain => "[...]"
  | .mappingAgain => "\x7b...\x7d"
  | .typedAgain .pair => "(...)"
  | .typedAgain .set => "set(...)"

/-- The elements of a sequence, quoted. -/
def Tree.quotedItems : List Tree → List String
  | [] => []
  | t :: rest => t.quoted :: quotedItems rest

/-- The entries of a mapping, quoted. -/
def Tree.quotedEntries : List (Scalar × Tree) → List String
  | [] => []
  | (key, t) :: rest => (key.quoted ++ ": " ++ t.quoted) :: quotedEntries rest

end

namespace Store

/-- A value as messages quote it. -/
def quoted (store : Store) (v : Value) : String := (store.tree v).quoted

/-- A value as plain text. -/
def plain (store : Store) : Value → String
  | .scalar s => s.plain
  | v => store.quoted v

end Store

end TypedClient

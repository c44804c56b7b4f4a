import TypedClient.Options
import TypedClient.Text.Blank

/-!
# Formatting

The two choices that the layout of generated code leaves open: what one level of indentation is, and
what ends a statement.
-/

namespace TypedClient

/-- A level of indentation and the end of a statement. -/
structure Formatting where
  unit : String := "  "
  terminator : String := ""
  deriving DecidableEq, Repr

/-- The formatting that options ask for. -/
def ClientOptions.formatting (store : Store) (options : ClientOptions) : Formatting :=
  ⟨options.indent.unit, if store.truthy options.semicolon then ";" else ""⟩

namespace Formatting

/-- A text within a comment: without blanks at its ends, each further line after the mark of a
comment line. -/
def comment (format : Formatting) (s : String) : String :=
  String.ofList (Text.replaceChar '\n' ("\n * " ++ format.unit).toList (Text.trimBlanks s.toList))

/-- A description within a comment. What counts as false is no description. -/
def description (store : Store) (format : Formatting) (v : Value) : Except Fault String :=
  if !store.truthy v then .ok ""
  else match v with
    | .scalar (.text s) => .ok (format.comment s)
    | .scalar (.bytes _) => .error .notText
    | _ => .error .lacksMember

end Formatting

end TypedClient

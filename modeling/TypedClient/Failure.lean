import TypedClient.Fault
import TypedClient.Number.Decimal
import TypedClient.Text.Quoted

/-!
# Failures

The generator refuses a document or an option with an error of its own, which has a text for the
user. `Failure` adds to these the faults of documents whose shape no operation expects, which have
none.
-/

namespace TypedClient

/-- Why a document is refused. The source is the path or address that it was read from. -/
inductive SchemaError where
  /-- The document cannot be read. -/
  | document (detail : String) (source : Option String)
  /-- The document lacks the shape that the generator reads. -/
  | invalid (detail : String) (field source : Option String)
  /-- A schema has no usable type, and that is not tolerated. -/
  | unresolvable (detail : String) (source : Option String)
  /-- A schema is met again inside itself, or lies too deep. -/
  | cyclic (depth : Int) (source : Option String)
  /-- Two enums with different literals derive one name. -/
  | collision (name existing incoming : String) (source : Option String)
  deriving DecidableEq, Repr

namespace SchemaError

/-- A text with the source before it, if there is a source to name. -/
def located (source : Option String) (text : String) : String :=
  match source with
  | none => text
  | some s => if s = "" then text else "[" ++ s ++ "] " ++ text

/-- A text with the field before it, if there is a field to name. -/
def fielded (field : Option String) (text : String) : String :=
  match field with
  | none => text
  | some f => if f = "" then text else "Field '" ++ f ++ "': " ++ text

/-- The text of an error. -/
def message : SchemaError → String
  | document detail source => located source detail
  | invalid detail field source => located source (fielded field detail)
  | unresolvable detail source => located source ("Unresolvable schema: " ++ detail)
  | cyclic depth source =>
    located source ("Cyclic schema detected at depth " ++ Decimal.signedString depth)
  | collision name existing incoming source =>
    located source ("Enum '" ++ name ++ "' already declared as " ++ Text.quoted existing
      ++ ", refusing " ++ Text.quoted incoming)

end SchemaError

/-- Why an option is refused. The value that was given is kept as messages quote it. -/
structure OptionError where
  option : String
  given : String
  expected : String
  deriving DecidableEq, Repr

/-- The text of an error. -/
def OptionError.message (e : OptionError) : String :=
  "Option '" ++ e.option ++ "': got " ++ e.given ++ ", expected " ++ e.expected

/-- Why an operation ends without a result. -/
inductive Failure where
  | schema (e : SchemaError)
  | option (e : OptionError)
  | malformed (fault : Fault)
  deriving DecidableEq, Repr

/-- The text of a failure, if it has one. -/
def Failure.message? : Failure → Option String
  | schema e => some e.message
  | option e => some e.message
  | malformed _ => none

/-- A result that only a fault can prevent. -/
def Failure.ofFault {α : Type} : Except Fault α → Except Failure α
  | .ok a => .ok a
  | .error fault => .error (.malformed fault)

end TypedClient

import TypedClient.Failure

/-!
# The enums of a run

Enums are declared once, under the name that their literals derive. A registry keeps the
declarations in the order in which their names came up; the first declaration of a name stays. A
second one that differs is a collision: a strict registry refuses it, a lenient one drops it and
says so.
-/

namespace TypedClient

/-- Two different declarations of one name. -/
structure EnumCollision where
  name : String
  existing : String
  incoming : String
  deriving DecidableEq, Repr

/-- The text of the warning about a declaration that was dropped. -/
def EnumCollision.warning (c : EnumCollision) : String :=
  "Enum name collision on " ++ c.name ++ ", keeping " ++ Text.quoted c.existing ++ " and dropping "
    ++ Text.quoted c.incoming

/-- The declarations by name, in the order in which the names came up. -/
structure Registry where
  strict : Bool := true
  entries : List (String × String) := []
  deriving DecidableEq, Repr, Inhabited

namespace Registry

/-- The declaration of a name. -/
def lookup (r : Registry) (name : String) : Option String := r.entries.lookup name

/-- Whether a name is declared. -/
def contains (r : Registry) (name : String) : Bool := (r.lookup name).isSome

/-- The names, in order. -/
def names (r : Registry) : List String := r.entries.map (·.1)

/-- The declarations, in order. -/
def declarations (r : Registry) : List String := r.entries.map (·.2)

/-- The registry without its entries. -/
def reset (r : Registry) : Registry := { r with entries := [] }

/-- The registry with one more entry. -/
def append (r : Registry) (name declaration : String) : Registry :=
  { r with entries := r.entries ++ [(name, declaration)] }

/-- The registry after a declaration, and the collision if it was dropped. -/
def insert (r : Registry) (name declaration : String) :
    Except SchemaError (Registry × Option EnumCollision) :=
  match r.lookup name with
  | none => .ok (r.append name declaration, none)
  | some existing =>
    if existing = declaration then .ok (r, none)
    else if r.strict then .error (.collision name existing declaration none)
    else .ok (r, some ⟨name, existing, declaration⟩)

end Registry

end TypedClient

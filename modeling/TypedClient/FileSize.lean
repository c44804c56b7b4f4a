import TypedClient.Document.Store
import TypedClient.Fault

/-!
# File sizes

A size is shown with one place after the point, in the first unit in which it is below 1024.
-/

namespace TypedClient.FileSize

/-- The units below the largest one. -/
def units : List String := ["B", "KB", "MB", "GB"]

/-- The largest unit. -/
def largestUnit : String := "TB"

/-- A size in a unit. -/
def shown (size : Binary64) (unit : String) : String := size.fixedText ++ " " ++ unit

/-- A size in the first of some units in which it is below 1024, or in the largest one. -/
def scaled (size : Binary64) : List String → String
  | [] => shown size largestUnit
  | unit :: rest => if size.below 1024 then shown size unit else scaled (size.divide 1024) rest

/-- The floating-point number nearest to an integer, if there is one. -/
def nearest (num den : Nat) : Except Fault Binary64 :=
  match Binary64.ofRatio false num den with
  | .infinite _ => .error .tooLarge
  | x => .ok x

/-- A whole number of bytes. The first division is of the integer itself. -/
def ofInt (n : Int) : Except Fault String :=
  if n < 1024 then
    match Binary64.ofInt n with
    | .infinite _ => .error .tooLarge
    | x => .ok (shown x "B")
  else (nearest n.natAbs 1024).map fun size => scaled size (units.drop 1)

/-- A number of bytes that a file has. -/
def text (n : Nat) : String :=
  match ofInt n with
  | .ok s => s
  | .error _ => ""

/-- A value as a size. Only numbers can be. -/
def ofValue : Value → Except Fault String
  | .scalar (.bool b) => ofInt (if b then 1 else 0)
  | .scalar (.int n) => ofInt n
  | .scalar (.float x) => .ok (scaled x units)
  | _ => .error .notComparable

end TypedClient.FileSize

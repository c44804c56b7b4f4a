import TypedClient.Document.Calendar
import TypedClient.Text.Quoted

/-!
# Scalars

The values of a document that contain no others. Integers are unbounded and are not
floating-point numbers, yet as keys of a mapping they count as equal to them: `1`, `1.0` and `true`
are one key.
-/

namespace TypedClient

/-- A value that contains no others. -/
inductive Scalar where
  | null
  | bool (b : Bool)
  | int (n : Int)
  | float (x : Binary64)
  | text (s : String)
  | date (d : Date)
  | moment (m : Moment)
  | bytes (bs : List UInt8)
  deriving DecidableEq, Repr, Inhabited

namespace Scalar

/-- Whether a condition takes the value for true. -/
def truthy : Scalar → Bool
  | null => false
  | bool b => b
  | int n => n != 0
  | float x => !x.isZero
  | text s => s != ""
  | date _ => true
  | moment _ => true
  | bytes bs => !bs.isEmpty

/-- The integer that a value counts as when it is compared. -/
def asInt? : Scalar → Option Int
  | bool b => some (if b then 1 else 0)
  | int n => some n
  | float x => x.toInt?
  | _ => none

/-- Whether two scalars are one key. What is not a number is a key of its own each time. -/
def sameKey (a b : Scalar) : Bool :=
  match a.asInt?, b.asInt? with
  | some m, some n => m == n
  | none, none =>
    match a, b with
    | moment m, moment n => m.isSame n
    | _, _ => a == b && a != float .nan
  | _, _ => false

/-- A value as messages quote it. -/
def quoted : Scalar → String
  | null => "None"
  | bool b => if b then "True" else "False"
  | int n => Decimal.signedString n
  | float x => x.text
  | text s => Text.quoted s
  | date d => d.quoted
  | moment m => m.quoted
  | bytes bs => Text.quotedBytes bs

/-- A value as plain text: text verbatim, dates and moments in digits, anything else as it is
quoted. -/
def plain : Scalar → String
  | text s => s
  | date d => d.text
  | moment m => m.text
  | s => s.quoted

end Scalar

end TypedClient

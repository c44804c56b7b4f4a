import TypedClient.Document.Scalar

/-!
# The types of plain scalars

A plain scalar has no type written with it, so its form decides: a word for a truth value or for
nothing, an integer, a floating-point number, a date, a merge key, or else a text. The forms do not
overlap.
-/

namespace TypedClient.Yaml

/-- The type of a node. -/
inductive Tag where
  | null
  | bool
  | int
  | float
  | timestamp
  | merge
  | value
  | text
  | binary
  | sequence
  | mapping
  | set
  /-- Mappings of one entry in order, which become pairs. -/
  | pairs
  /-- A type that is not supported. -/
  | other (name : String)
  deriving DecidableEq, Repr, Inhabited

/-- What the names of the common types start with. -/
def commonTagSpace : String := "tag:yaml.org,2002:"

/-- The types by their names within the common space. -/
def commonTags : List (String × Tag) :=
  [("null", .null), ("bool", .bool), ("int", .int), ("float", .float), ("timestamp", .timestamp),
   ("merge", .merge), ("value", .value), ("str", .text), ("binary", .binary), ("seq", .sequence),
   ("map", .mapping), ("set", .set), ("omap", .pairs), ("pairs", .pairs)]

/-- The type of a full name. -/
def Tag.ofName (name : String) : Tag :=
  match commonTags.find? fun (short, _) => commonTagSpace ++ short = name with
  | some (_, t) => t
  | none => .other name

/-- The words for truth values. -/
def boolWords : List String :=
  ["yes", "Yes", "YES", "no", "No", "NO", "true", "True", "TRUE", "false", "False", "FALSE", "on",
   "On", "ON", "off", "Off", "OFF"]

/-- The words for nothing. -/
def nullWords : List String := ["~", "null", "Null", "NULL", ""]

/-- A text without the line feed at its end, if it has one there. -/
def withoutFinalBreak (cs : List Char) : List Char :=
  if cs.getLast? = some '\n' then cs.dropLast else cs

/-- A text after one sign, if it starts with one. -/
def afterSign : List Char → List Char
  | '+' :: rest => rest
  | '-' :: rest => rest
  | cs => cs

/-- Whether a character is a digit or an underscore. -/
def isDigitOrGap (c : Char) : Bool := c.isDigit || c = '_'

/-- Whether a text is one or more characters of a kind. -/
def isRunOf (p : Char → Bool) (cs : List Char) : Bool := !cs.isEmpty && cs.all p

/-- Whether a text is groups of one or two digits below sixty, a colon before each. -/
def isSixtieths : List Char → Bool
  | [':', d] => d.isDigit
  | [':', d, e] => '0' ≤ d && d ≤ '5' && e.isDigit
  | ':' :: d :: ':' :: rest => d.isDigit && isSixtieths (':' :: rest)
  | ':' :: d :: e :: ':' :: rest =>
    '0' ≤ d && d ≤ '5' && e.isDigit && isSixtieths (':' :: rest)
  | _ => false

/-- Whether a text without its sign is an integer: binary, octal, hexadecimal, decimal or in
sixtieths. -/
def isUnsignedInt : List Char → Bool
  | ['0'] => true
  | '0' :: 'b' :: rest => isRunOf (fun c => c = '0' || c = '1' || c = '_') rest
  | '0' :: 'x' :: rest =>
    isRunOf (fun c => c.isDigit || 'a' ≤ c && c ≤ 'f' || 'A' ≤ c && c ≤ 'F' || c = '_') rest
  | '0' :: rest => isRunOf (fun c => '0' ≤ c && c ≤ '7' || c = '_') rest
  | c :: rest =>
    let tail := rest.dropWhile isDigitOrGap
    c.isDigit && (tail.isEmpty || isSixtieths tail)
  | [] => false

/-- Whether a text is nothing, or a signed exponent. -/
def isExponentOrNone : List Char → Bool
  | [] => true
  | e :: sign :: rest =>
    (e = 'e' || e = 'E') && (sign = '+' || sign = '-') && isRunOf Char.isDigit rest
  | _ => false

/-- Whether a text without its sign is a number with a point after its first digits. -/
def isPointedFloat : List Char → Bool
  | [] => false
  | c :: rest =>
    let tail := rest.dropWhile isDigitOrGap
    let sixtieths := tail.takeWhile (· != '.')
    c.isDigit && match tail.drop sixtieths.length with
      | '.' :: fraction =>
        if sixtieths.isEmpty then isExponentOrNone (fraction.dropWhile isDigitOrGap)
        else isSixtieths sixtieths && fraction.all isDigitOrGap
      | _ => false

/-- Whether a text is a number that starts with its point. -/
def isBareFraction : List Char → Bool
  | '.' :: c :: rest => c.isDigit && isExponentOrNone (rest.dropWhile isDigitOrGap)
  | _ => false

/-- Whether a text is a floating-point number. -/
def isFloat (cs : List Char) : Bool :=
  let unsigned := afterSign cs
  isPointedFloat unsigned || isBareFraction cs
    || [".inf", ".Inf", ".INF"].contains (String.ofList unsigned)
    || [".nan", ".NaN", ".NAN"].contains (String.ofList cs)

/-- The number at the start of a text with at least and at most so many digits, and what follows. -/
def boundedNumber (least most : Nat) (cs : List Char) : Option (Nat × List Char) :=
  let digits := (cs.take most).takeWhile Char.isDigit
  if digits.length < least then none
  else some (digits.foldl (fun n c => 10 * n + (c.toNat - '0'.toNat)) 0, cs.drop digits.length)

/-- A character read. -/
def afterChar (c : Char) : List Char → Option (List Char)
  | d :: rest => if d = c then some rest else none
  | [] => none

/-- Blanks skipped. -/
def skipBlanks (cs : List Char) : List Char := cs.dropWhile fun c => c = ' ' || c = '\t'

/-- The parts of a timestamp as they are written. -/
structure TimestampParts where
  year : Nat
  month : Nat
  day : Nat
  /-- Hour, minute, second and the digits of the fraction. -/
  time : Option (Nat × Nat × Nat × List Char) := none
  /-- Minutes from universal time. -/
  offset : Option Int := none
  /-- Whether month and day have two digits each. -/
  isPadded : Bool
  deriving DecidableEq, Repr

/-- The offset at the end of a timestamp. -/
def timestampOffset (cs : List Char) : Option (Option Int) :=
  let signed (rest : List Char) : Option Nat := do
    let (hours, rest) ← boundedNumber 1 2 rest
    match rest with
    | [] => return hours * 60
    | _ =>
      let (minutes, rest) ← boundedNumber 2 2 (← afterChar ':' rest)
      if rest.isEmpty then return hours * 60 + minutes else none
  match skipBlanks cs with
  | ['Z'] => some (some 0)
  | '+' :: rest => (signed rest).map fun (m : Nat) => some (m : Int)
  | '-' :: rest => (signed rest).map fun (m : Nat) => some (-(m : Int))
  | _ => if cs.isEmpty then some none else none

/-- The time of day of a timestamp, with what follows. -/
def timestampTime (cs : List Char) :
    Option ((Nat × Nat × Nat × List Char) × List Char) := do
  let start ← match cs with
    | 'T' :: rest => some rest
    | 't' :: rest => some rest
    | _ => if skipBlanks cs = cs then none else some (skipBlanks cs)
  let (hour, rest) ← boundedNumber 1 2 start
  let (minute, rest) ← boundedNumber 2 2 (← afterChar ':' rest)
  let (second, rest) ← boundedNumber 2 2 (← afterChar ':' rest)
  match rest with
  | '.' :: more =>
    return ((hour, minute, second, more.takeWhile Char.isDigit), more.dropWhile Char.isDigit)
  | _ => return ((hour, minute, second, []), rest)

/-- The parts of a timestamp, after which nothing is written. -/
def timestampForm (cs : List Char) : Option TimestampParts := do
  let (year, rest) ← boundedNumber 4 4 cs
  let (month, rest) ← boundedNumber 1 2 (← afterChar '-' rest)
  let (day, tail) ← boundedNumber 1 2 (← afterChar '-' rest)
  let isPadded := cs.length = tail.length + 10
  if tail.isEmpty then return { year, month, day, isPadded }
  let (time, rest) ← timestampTime tail
  let offset ← timestampOffset rest
  return { year, month, day, isPadded, time := some time, offset }

/-- The parts of a timestamp. One line feed at its end does no harm. -/
def timestampParts (cs : List Char) : Option TimestampParts :=
  timestampForm (withoutFinalBreak cs)

/-- Whether a text is a timestamp: without a time of day, month and day need two digits. -/
def isTimestamp (cs : List Char) : Bool :=
  match timestampForm cs with
  | some parts => parts.isPadded || parts.time.isSome
  | none => false

/-- The type of a scalar by its form, nothing being written after it. -/
def Tag.ofForm (cs : List Char) : Tag :=
  let s := String.ofList cs
  if boolWords.contains s then .bool
  else if isFloat cs then .float
  else if isUnsignedInt (afterSign cs) then .int
  else if s = "<<" then .merge
  else if nullWords.contains s then .null
  else if isTimestamp cs then .timestamp
  else if s = "=" then .value
  else .text

/-- The type of a scalar by its form. One line feed at its end, which a plain scalar never has, does
no harm, but is not nothing either. -/
def Tag.ofPlain (s : String) : Tag :=
  match s.toList, withoutFinalBreak s.toList with
  | _ :: _, [] => .text
  | _, form => .ofForm form

end TypedClient.Yaml

import TypedClient.Fault
import TypedClient.Number.Binary64
import TypedClient.Text.Blank
import TypedClient.Text.DecimalDigit

/-!
# Numerals as people write them

Numbers in options and in explicitly tagged scalars are read leniently: blanks around the numeral, a
sign, digits of any script, and single underscores between digits are all accepted.
-/

namespace TypedClient.Numeral

/-- Whether a character may stand around a numeral. The information separators may not. -/
def isBlank (c : Char) : Bool :=
  if c.toNat < 0x7f then c = ' ' || (0x09 ≤ c.toNat && c.toNat ≤ 0x0d) else Text.isBlank c

/-- A text without the blanks around it. -/
def trim (cs : List Char) : List Char :=
  ((cs.dropWhile isBlank).reverse.dropWhile isBlank).reverse

/-- The value of a digit, letters counting on from ten. -/
def digit? (c : Char) : Option Nat :=
  if 'a' ≤ c && c ≤ 'z' then some (c.toNat - 'a'.toNat + 10)
  else if 'A' ≤ c && c ≤ 'Z' then some (c.toNat - 'A'.toNat + 10)
  else Text.digitValue? c

/-- The values of digits with single underscores between them. -/
def digits? (base : Nat) : List Char → Option (List Nat)
  | [] => none
  | [c] => (digit? c).filter (· < base) |>.map ([·])
  | c :: '_' :: rest => do
    let d ← (digit? c).filter (· < base)
    return d :: (← digits? base rest)
  | c :: rest => do
    let d ← (digit? c).filter (· < base)
    return d :: (← digits? base rest)

/-- The number with these digits. -/
def ofDigits (base : Nat) (digits : List Nat) : Nat :=
  digits.foldl (fun n d => base * n + d) 0

/-- A text after its sign, and whether that is a minus. -/
def splitSign : List Char → Bool × List Char
  | '-' :: rest => (true, rest)
  | '+' :: rest => (false, rest)
  | cs => (false, cs)

/-- A numeral without the mark of its base, which an underscore may follow. -/
def withoutMark (base : Nat) (cs : List Char) : List Char :=
  let marks : List Char :=
    if base = 16 then ['x', 'X'] else if base = 8 then ['o', 'O'] else if base = 2 then ['b', 'B']
    else []
  match cs with
  | '0' :: mark :: rest =>
    if marks.contains mark then (match rest with
      | '_' :: more => more
      | _ => rest)
    else cs
  | _ => cs

/-- The greatest number of decimal digits of an integer. -/
def maxDigits : Nat := 4300

/-- The integer that a numeral to a base writes. -/
def readInt (base : Nat) (cs : List Char) : Except Fault Int :=
  let (negative, unsigned) := splitSign (trim cs)
  match digits? base (withoutMark base unsigned) with
  | none => .error .badNumeral
  | some digits =>
    if base = 10 && digits.length > maxDigits then .error .tooManyDigits
    else
      let n : Int := ofDigits base digits
      .ok (if negative then -n else n)

/-- The digits at the start of a text, which may be missing, and the text after them. -/
def leadingDigits (cs : List Char) : Option (List Nat × List Char) :=
  match cs.span fun c => c = '_' || (Text.digitValue? c).isSome with
  | ([], rest) => some ([], rest)
  | (run, rest) => (digits? 10 run).map (·, rest)

/-- The exponent at the end of a numeral. -/
def exponent? : List Char → Option Int
  | [] => some 0
  | c :: rest =>
    if c = 'e' || c = 'E' then do
      let (negative, unsigned) := splitSign rest
      let digits ← digits? 10 unsigned
      let n : Int := ofDigits 10 digits
      return if negative then -n else n
    else none

/-- The names of values that are not finite. -/
def notFinite? (negative : Bool) (cs : List Char) : Option Binary64 :=
  let word := String.ofList (cs.map Char.toLower)
  if word = "inf" || word = "infinity" then some (.infinite negative)
  else if word = "nan" then some .nan
  else none

/-- The number that a numeral without its sign writes. -/
def readUnsignedFloat (negative : Bool) (cs : List Char) : Option Binary64 := do
  let (whole, rest) ← leadingDigits cs
  let (fraction, rest) ← match rest with
    | '.' :: more => leadingDigits more
    | _ => some ([], rest)
  if whole.isEmpty && fraction.isEmpty then none
  let exponent ← exponent? rest
  return Binary64.ofDecimal negative (ofDigits 10 (whole ++ fraction)) (exponent - fraction.length)

/-- The floating-point number that a numeral writes. -/
def readFloat (cs : List Char) : Except Fault Binary64 :=
  let (negative, unsigned) := splitSign (trim cs)
  match notFinite? negative unsigned <|> readUnsignedFloat negative unsigned with
  | some x => .ok x
  | none => .error .badNumeral

end TypedClient.Numeral

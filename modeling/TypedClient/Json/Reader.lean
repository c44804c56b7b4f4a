import TypedClient.Document.Tree
import TypedClient.Fault
import TypedClient.Number.Numeral

/-!
# Reading JSON

`Json.read` turns a text into a tree. A mapping keeps its entries in the order of the text, a
repeated key its first place and its last value. A numeral with a fraction or an exponent is a
floating-point number and any other an integer; the names of the values that are not finite are
accepted too.

The recursive functions take an amount of fuel. No two calls in a row leave the text as it is, so
twice the length of the text is enough. A complaint carries the number of characters that were
left, from which the position is computed at the end.
-/

namespace TypedClient.Json

/-- What a text may be found to violate. -/
inductive Problem where
  | byteOrderMark
  | expectingValue
  | expectingName
  | expectingColon
  | expectingComma
  | extraText
  | unterminatedString
  | controlCharacter
  | badEscape
  | badCodeEscape
  deriving DecidableEq, Repr

/-- The wording of a problem. -/
def Problem.text : Problem → String
  | byteOrderMark => "Unexpected UTF-8 BOM (decode using utf-8-sig)"
  | expectingValue => "Expecting value"
  | expectingName => "Expecting property name enclosed in double quotes"
  | expectingColon => "Expecting ':' delimiter"
  | expectingComma => "Expecting ',' delimiter"
  | extraText => "Extra data"
  | unterminatedString => "Unterminated string starting at"
  | controlCharacter => "Invalid control character at"
  | badEscape => "Invalid \\escape"
  | badCodeEscape => "Invalid \\uXXXX escape"

/-- Why a text could not be read. -/
inductive ReadError where
  /-- A problem, with the number of characters from its place to the end. -/
  | problem (what : Problem) (remaining : Nat)
  /-- A numeral of too many digits. -/
  | tooManyDigits
  /-- More containers within one another than are accepted. -/
  | tooDeep
  deriving DecidableEq, Repr

/-- Whether a character may stand between two parts of a text. -/
def isGap (c : Char) : Bool := c = ' ' || c = '\t' || c = '\n' || c = '\r'

/-- A text after its leading gap. -/
def skipGap (cs : List Char) : List Char := cs.dropWhile isGap

/-- The value of a hexadecimal digit. -/
def hexValue? (c : Char) : Option Nat :=
  if '0' ≤ c && c ≤ '9' then some (c.toNat - '0'.toNat)
  else if 'a' ≤ c && c ≤ 'f' then some (c.toNat - 'a'.toNat + 10)
  else if 'A' ≤ c && c ≤ 'F' then some (c.toNat - 'A'.toNat + 10)
  else none

/-- The number that hexadecimal digits write. -/
def hexNumber? (cs : List Char) : Option Nat :=
  cs.foldl (fun n c => do return 16 * (← n) + (← hexValue? c)) (some 0)

/-- Four hexadecimal digits after a `u`, and the text after them, of which there has to be some. -/
def codeUnit (cs : List Char) : Except ReadError (Nat × List Char) :=
  let digits := cs.take 4
  let rest := cs.drop 4
  match hexNumber? digits, rest with
  | some n, _ :: _ => .ok (n, rest)
  | _, _ => .error (.problem .badCodeEscape (cs.length + 1))

/-- The character of an escape with a code, and the text after it. Two units that form a pair are
one character. -/
def codeEscape (cs : List Char) : Except ReadError (Char × List Char) := do
  let (high, rest) ← codeUnit cs
  match 0xd800 ≤ high && high ≤ 0xdbff, rest with
  | true, '\\' :: 'u' :: more =>
    if more.length ≤ 4 then return (Text.charOf high, rest)
    else
      let (low, after) ← codeUnit more
      if 0xdc00 ≤ low && low ≤ 0xdfff then
        return (Char.ofNat (0x10000 + (high - 0xd800) * 0x400 + (low - 0xdc00)), after)
      else return (Text.charOf high, rest)
  | _, _ => return (Text.charOf high, rest)

/-- The character that a short escape stands for. -/
def shortEscape? : Char → Option Char
  | 'b' => some '\x08'
  | 'f' => some '\x0c'
  | 'n' => some '\n'
  | 'r' => some '\r'
  | 't' => some '\t'
  | '\\' => some '\\'
  | '/' => some '/'
  | c => if c = Text.doubleQuote then some c else none

/-- The rest of a string after its opening quote: its characters, and the text after the closing
quote. `start` is what was left at the opening quote. -/
def stringRest (start : Nat) : (fuel : Nat) → (acc : List Char) → List Char →
    Except ReadError (String × List Char)
  | 0, _, _ => .error (.problem .unterminatedString start)
  | _ + 1, _, [] => .error (.problem .unterminatedString start)
  | fuel + 1, acc, c :: rest =>
    if c = Text.doubleQuote then .ok (String.ofList acc.reverse, rest)
    else if c = '\\' then
      match rest with
      | [] => .error (.problem .unterminatedString start)
      | 'u' :: more => do
        let (d, after) ← codeEscape more
        stringRest start fuel (d :: acc) after
      | d :: more =>
        match shortEscape? d with
        | some e => stringRest start fuel (e :: acc) more
        | none => .error (.problem .badEscape (rest.length + 1))
    else if c.toNat ≤ 0x1f then .error (.problem .controlCharacter (rest.length + 1))
    else stringRest start fuel (c :: acc) rest

/-- The number that decimal digits write. -/
def decimalNumber (cs : List Char) : Nat :=
  cs.foldl (fun n c => 10 * n + (c.toNat - '0'.toNat)) 0

/-- The whole part of a numeral, which starts with a zero only if it is zero. -/
def wholePart : List Char → Option (List Char × List Char)
  | '0' :: rest => some (['0'], rest)
  | c :: rest => if c.isDigit then some ((c :: rest).span Char.isDigit) else none
  | [] => none

/-- The digits after a point, if there are any. -/
def fractionPart : List Char → Option (List Char × List Char)
  | '.' :: rest =>
    match rest.span Char.isDigit with
    | ([], _) => none
    | (digits, after) => some (digits, after)
  | _ => none

/-- The exponent of a numeral, if there is a complete one. -/
def exponentPart (cs : List Char) : Option (Int × List Char) :=
  let signed (negative : Bool) (rest : List Char) : Option (Int × List Char) :=
    match rest.span Char.isDigit with
    | ([], _) => none
    | (digits, after) =>
      let n : Int := decimalNumber digits
      some (if negative then -n else n, after)
  match cs with
  | c :: rest =>
    if c = 'e' || c = 'E' then
      match rest with
      | '-' :: more => signed true more
      | '+' :: more => signed false more
      | _ => signed false rest
    else none
  | [] => none

/-- A numeral. What looks like the start of a fraction or of an exponent and is none is left. -/
def number (cs : List Char) : Except ReadError (Scalar × List Char) :=
  let (negative, unsigned) := match cs with
    | '-' :: rest => (true, rest)
    | _ => (false, cs)
  match wholePart unsigned with
  | none => .error (.problem .expectingValue cs.length)
  | some (whole, rest) =>
    let (fraction, afterFraction) := (fractionPart rest).getD ([], rest)
    match exponentPart afterFraction, fraction with
    | none, [] =>
      if whole.length > Numeral.maxDigits then .error .tooManyDigits
      else
        let n : Int := decimalNumber whole
        .ok (.int (if negative then -n else n), rest)
    | exponent?, _ =>
      let (exponent, after) := exponent?.getD (0, afterFraction)
      .ok (.float (Binary64.ofDecimal negative (decimalNumber (whole ++ fraction))
        (exponent - fraction.length)), after)

/-- The text after a word, if it starts with the word. -/
def after? (word : String) (cs : List Char) : Option (List Char) :=
  if word.toList.isPrefixOf cs then some (cs.drop word.length) else none

/-- The values with names. -/
def namedValues : List (String × Scalar) :=
  [("null", .null), ("true", .bool true), ("false", .bool false), ("NaN", .float .nan),
   ("Infinity", .float (.infinite false)), ("-Infinity", .float (.infinite true))]

/-- A value without parts that is no string. -/
def scalar (cs : List Char) : Except ReadError (Scalar × List Char) :=
  match namedValues.findSome? fun (word, s) => (after? word cs).map (s, ·) with
  | some found => .ok found
  | none => number cs

/-- The greatest number of containers within one another. -/
def maxDepth : Nat := 987

mutual

/-- A value within a number of containers, and the text after it. -/
def value : (fuel depth : Nat) → List Char → Except ReadError (Tree × List Char)
  | 0, _, cs => .error (.problem .expectingValue cs.length)
  | fuel + 1, depth, cs =>
    match cs with
    | [] => .error (.problem .expectingValue 0)
    | c :: rest =>
      if c = Text.doubleQuote then do
        let (s, after) ← stringRest cs.length cs.length [] rest
        return (.text s, after)
      else if (c = '[' || c = '\x7b') && depth ≥ maxDepth then .error .tooDeep
      else if c = '[' then
        match skipGap rest with
        | ']' :: after => .ok (.sequence [], after)
        | inner => do
          let (items, after) ← elements fuel (depth + 1) [] inner
          return (.sequence items, after)
      else if c = '\x7b' then
        match skipGap rest with
        | '\x7d' :: after => .ok (.mapping [], after)
        | inner => do
          let (entries, after) ← members fuel (depth + 1) [] inner
          return (.mapping entries, after)
      else do
        let (s, after) ← scalar cs
        return (.scalar s, after)

/-- The elements of a sequence up to its closing bracket. -/
def elements : (fuel depth : Nat) → (acc : List Tree) → List Char →
    Except ReadError (List Tree × List Char)
  | 0, _, _, cs => .error (.problem .expectingValue cs.length)
  | fuel + 1, depth, acc, cs => do
    let (t, after) ← value fuel depth cs
    match skipGap after with
    | ']' :: rest => return ((t :: acc).reverse, rest)
    | ',' :: rest => elements fuel depth (t :: acc) (skipGap rest)
    | rest => throw (.problem .expectingComma rest.length)

/-- The entries of a mapping up to its closing bracket. -/
def members : (fuel depth : Nat) → (acc : List (Scalar × Tree)) → List Char →
    Except ReadError (List (Scalar × Tree) × List Char)
  | 0, _, _, cs => .error (.problem .expectingName cs.length)
  | fuel + 1, depth, acc, cs =>
    match cs with
    | [] => .error (.problem .expectingName 0)
    | c :: rest => do
      if c != Text.doubleQuote then throw (.problem .expectingName cs.length)
      let (name, afterName) ← stringRest cs.length cs.length [] rest
      match skipGap afterName with
      | ':' :: beforeValue =>
        let (t, after) ← value fuel depth (skipGap beforeValue)
        let acc := (Scalar.text name, t) :: acc
        match skipGap after with
        | '\x7d' :: rest =>
          return (acc.reverse.foldl (fun entries (k, v) => Tree.putEntry entries k v) [], rest)
        | ',' :: rest => members fuel depth acc (skipGap rest)
        | rest => throw (.problem .expectingComma rest.length)
      | rest => throw (.problem .expectingColon rest.length)

end

/-- A text as a tree. -/
def read (text : String) : Except ReadError Tree := do
  let cs := text.toList
  if cs.head? = some (Char.ofNat 0xfeff) then throw (.problem .byteOrderMark cs.length)
  let (t, after) ← value (2 * cs.length + 2) 0 (skipGap cs)
  match skipGap after with
  | [] => return t
  | rest => throw (.problem .extraText rest.length)

/-- A place in a text as line, column and offset, the first two counted from one. -/
def place (text : String) (remaining : Nat) : String :=
  let cs := text.toList
  let offset := cs.length - remaining
  let before := cs.take offset
  let line := before.count '\n' + 1
  let column := (before.reverse.takeWhile (· != '\n')).length + 1
  "line " ++ Decimal.digitString line ++ " column " ++ Decimal.digitString column ++ " (char "
    ++ Decimal.digitString offset ++ ")"

/-- A problem with its place in the text. -/
def describe (text : String) (what : Problem) (remaining : Nat) : String :=
  what.text ++ ": " ++ place text remaining

end TypedClient.Json

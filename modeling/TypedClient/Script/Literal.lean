import TypedClient.Json.Reader
import TypedClient.Naming.Identifier

/-!
# Literals as scripts read them

The generated code is read by an engine for scripts, and what it makes of a literal is defined here,
without a look at how literals are written. A literal is data: `null`, truth values, numbers, text
between single quotes, lists in brackets and objects in braces. Keys of objects are text or plain
names, and a comma may follow the last element.

The reading has two halves. `Scanner` cuts characters into tokens, and `Reading` puts tokens
together. Both are machines that take one step for each character or token.
-/

namespace TypedClient.Script

/-- What a literal denotes. Text is a sequence of UTF-16 units, and an object has its entries in the
order in which they are written. -/
inductive Datum where
  | null
  | bool (b : Bool)
  | number (x : Binary64)
  | text (units : List Nat)
  | list (items : List Datum)
  | object (entries : List (List Nat × Datum))
  deriving Inhabited, Repr

/-- The UTF-16 units of a character. -/
def unitsOf (c : Char) : List Nat :=
  let n := Text.codeOf c
  if n < 0x10000 then [n] else [0xd800 + (n - 0x10000) / 0x400, 0xdc00 + (n - 0x10000) % 0x400]

/-- The UTF-16 units of a text. -/
def units (cs : List Char) : List Nat := cs.flatMap unitsOf

/-! ## Tokens -/

/-- A token: a bracket, brace, colon or comma, a text between quotes, or a run of the characters that
names and numbers have. -/
inductive Token where
  | mark (c : Char)
  | text (units : List Nat)
  | bare (cs : List Char)
  deriving DecidableEq, Repr

/-- The characters that may stand between tokens. -/
def blankRanges : CharRanges :=
  [(0x9, 0xd), (0x20, 0x20), (0xa0, 0xa0), (0x1680, 0x1680), (0x2000, 0x200a), (0x2028, 0x2029),
   (0x202f, 0x202f), (0x205f, 0x205f), (0x3000, 0x3000), (0xfeff, 0xfeff)]

/-- The characters that are tokens. -/
def marks : List Char := ['{', '}', '[', ']', ':', ',']

/-- Whether a name or a number may have a character. -/
def isBareChar (c : Char) : Bool :=
  c.isAlphanum || c = '_' || c = '$' || c = '.' || c = '+' || c = '-'

/-- Whether a character ends a line. -/
def isLineEnd (c : Char) : Bool :=
  c = '\n' || c = '\r' || c.toNat = 0x2028 || c.toNat = 0x2029

/-- The unit that a letter after a backslash stands for. -/
def controlEscape? : Char → Option Nat
  | 'b' => some 0x08
  | 't' => some 0x09
  | 'n' => some 0x0a
  | 'v' => some 0x0b
  | 'f' => some 0x0c
  | 'r' => some 0x0d
  | _ => none

/-- Where the scanner is: between tokens, in a bare token, or in a text, there perhaps after a
backslash or in a code of so many digits more. -/
inductive Scanner where
  | between
  | bare (earlier : List Char)
  | quoted (units : List Nat)
  | escaped (units : List Nat)
  | coded (units : List Nat) (digits code : Nat)
  deriving DecidableEq, Repr

namespace Scanner

/-- The step between tokens. -/
def betweenStep (c : Char) : Option (Scanner × List Token) :=
  if blankRanges.holds c then some (between, [])
  else if marks.contains c then some (between, [.mark c])
  else if c = Text.apostrophe then some (quoted [], [])
  else if isBareChar c then some (bare [c], [])
  else none

/-- The step in a text. A text does not go on over the end of a line. -/
def quotedStep (units : List Nat) (c : Char) : Option Scanner :=
  if c = '\\' then some (escaped units)
  else if c = '\n' || c = '\r' then none
  else some (quoted (units ++ unitsOf c))

/-- The step after a backslash. Codes in octal digits are not read. -/
def escapedStep (units : List Nat) (c : Char) : Option Scanner :=
  if c = 'x' then some (coded units 2 0)
  else if c = 'u' then some (coded units 4 0)
  else if c.isDigit then none
  else if isLineEnd c then some (quoted units)
  else some (quoted (units ++ ((controlEscape? c).map ([·])).getD (unitsOf c)))

/-- The step in a code. -/
def codedStep (units : List Nat) (digits code : Nat) (c : Char) : Option Scanner :=
  (Json.hexValue? c).map fun d =>
    if digits ≤ 1 then quoted (units ++ [16 * code + d]) else coded units (digits - 1) (16 * code + d)

/-- One character, and the tokens that end with it. -/
def step : Scanner → Char → Option (Scanner × List Token)
  | between, c => betweenStep c
  | bare earlier, c =>
    if isBareChar c then some (bare (c :: earlier), [])
    else (betweenStep c).map fun (next, tokens) => (next, .bare earlier.reverse :: tokens)
  | quoted units, c =>
    if c = Text.apostrophe then some (between, [.text units])
    else (quotedStep units c).map (·, [])
  | escaped units, c => (escapedStep units c).map (·, [])
  | coded units digits code, c => (codedStep units digits code c).map (·, [])

/-- The tokens of the characters that follow. -/
def scan : Scanner → List Char → Option (List Token)
  | between, [] => some []
  | bare earlier, [] => some [.bare earlier.reverse]
  | _, [] => none
  | scanner, c :: rest =>
    (scanner.step c).bind fun (next, tokens) => (scan next rest).map (tokens ++ ·)

end Scanner

/-! ## Numbers -/

/-- A natural number by its digits. -/
def natural (digits : List Char) : Nat := Nat.ofDigitChars 10 digits 0

/-- Whether a text starts with a minus, and the text after its sign. -/
def sign : List Char → Bool × List Char
  | '-' :: rest => (true, rest)
  | '+' :: rest => (false, rest)
  | cs => (false, cs)

/-- The exponent at the end of a numeral. -/
def exponent? : List Char → Option Int
  | [] => some 0
  | mark :: rest =>
    if mark != 'e' && mark != 'E' then none
    else
      let (negative, digits) := sign rest
      if digits.isEmpty || !digits.all Char.isDigit then none
      else some (if negative then -(natural digits : Int) else natural digits)

/-- The digits after a point at the start of a text, and the text after them. -/
def fraction : List Char → List Char × List Char
  | '.' :: more => more.span Char.isDigit
  | cs => ([], cs)

/-- The number that a numeral without its sign denotes: the one nearest to its decimal value. A
numeral does not start with a zero before another digit. -/
def magnitude? (negative : Bool) (cs : List Char) : Option Binary64 :=
  let (whole, rest) := cs.span Char.isDigit
  let (places, rest) := fraction rest
  if whole.isEmpty || whole.head? = some '0' && whole.length != 1 then none
  else (exponent? rest).map fun exponent =>
    Binary64.ofDecimal negative (natural (whole ++ places)) (exponent - places.length)

/-- The number that a numeral denotes. -/
def number? : List Char → Option Binary64
  | '-' :: rest => magnitude? true rest
  | cs => magnitude? false cs

/-- The value of a bare token. -/
def scalar? (cs : List Char) : Option Datum :=
  if cs = "null".toList then some .null
  else if cs = "true".toList then some (.bool true)
  else if cs = "false".toList then some (.bool false)
  else (number? cs).map .number

/-! ## Structure -/

/-- A list or an object around the part that is being read, with what it has so far. -/
inductive Frame where
  | list (items : List Datum)
  | object (entries : List (List Nat × Datum)) (key : List Nat)
  deriving Inhabited, Repr

/-- The key that is not an entry but names the prototype of the object. A literal with it is not read
as data. -/
def prototypeKey : List Nat := units "__proto__".toList

/-- What has been read, and what is expected next, always within frames from the inside out. -/
inductive Reading where
  /-- A value is expected. -/
  | value (frames : List Frame)
  /-- An item of a list is expected, or its end. -/
  | item (items : List Datum) (frames : List Frame)
  /-- A key of an object is expected, or its end. -/
  | key (entries : List (List Nat × Datum)) (frames : List Frame)
  /-- The colon after a key is expected. -/
  | colon (entries : List (List Nat × Datum)) (key : List Nat) (frames : List Frame)
  /-- A value is complete. -/
  | after (d : Datum) (frames : List Frame)
  deriving Inhabited, Repr

namespace Reading

/-- The start of a value. -/
def start (frames : List Frame) : Token → Option Reading
  | .mark c =>
    if c = '[' then some (item [] frames) else if c = '{' then some (key [] frames) else none
  | .text units => some (after (.text units) frames)
  | .bare cs => (scalar? cs).map (after · frames)

/-- One token. -/
def step : Reading → Token → Option Reading
  | value frames, token => start frames token
  | item items frames, token =>
    if token = .mark ']' then some (after (.list items) frames)
    else start (.list items :: frames) token
  | key entries frames, .mark c =>
    if c = '}' then some (after (.object entries) frames) else none
  | key entries frames, .text name =>
    if name = prototypeKey then none else some (colon entries name frames)
  | key entries frames, .bare cs =>
    if Naming.isIdentifier cs && units cs != prototypeKey then
      some (colon entries (units cs) frames)
    else none
  | colon entries name frames, token =>
    if token = .mark ':' then some (value (.object entries name :: frames)) else none
  | after d (.list items :: frames), token =>
    if token = .mark ',' then some (item (items ++ [d]) frames)
    else if token = .mark ']' then some (after (.list (items ++ [d])) frames)
    else none
  | after d (.object entries name :: frames), token =>
    if token = .mark ',' then some (key (entries ++ [(name, d)]) frames)
    else if token = .mark '}' then some (after (.object (entries ++ [(name, d)])) frames)
    else none
  | after _ [], _ => none

/-- Tokens in order. -/
def run : Reading → List Token → Option Reading
  | reading, [] => some reading
  | reading, token :: rest => (reading.step token).bind fun next => run next rest

/-- The value that has been read, if it is complete. -/
def complete? : Reading → Option Datum
  | after d [] => some d
  | _ => none

end Reading

/-- What a literal denotes, if it is one. -/
def read (text : String) : Option Datum :=
  (Scanner.between.scan text.toList).bind fun tokens =>
    ((Reading.value []).run tokens).bind Reading.complete?

/-- The key that a text denotes before a colon. -/
def readKey (text : String) : Option (List Nat) :=
  match Scanner.between.scan text.toList with
  | some [.text units] => some units
  | some [.bare cs] => if Naming.isIdentifier cs then some (units cs) else none
  | _ => none

end TypedClient.Script

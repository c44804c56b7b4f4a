import TypedClient.Text.Edit
import TypedClient.Text.Surrogate
import TypedClient.Text.Unprintable

/-!
# Text as messages quote it

A quoted text stands between single quotes, or between double quotes when it contains a single quote
and no double quote. A backslash, the quote in use, a line break and a tab are escaped with a
backslash; every other unprintable character is written as its code in two, four or eight
hexadecimal digits. Bytes are quoted like text, with a mark before it; only those of printable ASCII
characters stand for them.
-/

namespace TypedClient.Text

/-- The last `width` hexadecimal digits of a number, in lower case. -/
def hexDigits (width n : Nat) : List Char :=
  (List.range width).reverse.map fun place => Nat.digitChar (n / Nat.pow 16 place % 16)

/-- An unprintable character by its code, in as few digits as the three widths allow. -/
def codeEscape (c : Char) : List Char :=
  let n := codeOf c
  if n < 0x100 then '\\' :: 'x' :: hexDigits 2 n
  else if n < 0x10000 then '\\' :: 'u' :: hexDigits 4 n
  else '\\' :: 'U' :: hexDigits 8 n

/-- One character of a quoted text. -/
def quotedChar (quote c : Char) : List Char :=
  if c = quote || c = '\\' then ['\\', c]
  else if c = '\n' then ['\\', 'n']
  else if c = '\r' then ['\\', 'r']
  else if c = '\t' then ['\\', 't']
  else if isPrintable c then [c]
  else codeEscape c

/-- The quote that a text stands between. -/
def quoteFor (cs : List Char) : Char :=
  if cs.contains apostrophe && !cs.contains doubleQuote then doubleQuote else apostrophe

/-- A text between quotes. -/
def quoted (s : String) : String :=
  let cs := s.toList
  let quote := quoteFor cs
  String.ofList (quote :: cs.flatMap (quotedChar quote) ++ [quote])

/-- The character with the code of a byte. -/
def charOfByte (b : UInt8) : Char := Char.ofNat b.toNat

/-- One of some quoted bytes. -/
def quotedByte (quote : Char) (b : UInt8) : List Char :=
  if b < 0x7f then quotedChar quote (charOfByte b) else codeEscape (charOfByte b)

/-- Bytes between quotes. -/
def quotedBytes (bytes : List UInt8) : String :=
  let quote := quoteFor (bytes.map charOfByte)
  String.ofList ('b' :: quote :: bytes.flatMap (quotedByte quote) ++ [quote])

end TypedClient.Text

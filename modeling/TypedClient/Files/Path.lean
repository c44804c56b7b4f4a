import TypedClient.Fault
import TypedClient.Text.Edit
import TypedClient.Text.Surrogate

/-!
# Paths

A path is kept as its parts. Empty parts and single dots say nothing and are dropped when a path is
read; double dots are kept, as where they lead depends on the files.
-/

namespace TypedClient

/-- A path: what it starts from, which is empty for a relative path, and its parts. -/
structure Path where
  root : String := ""
  parts : List String := []
  deriving DecidableEq, Repr, Inhabited

namespace Path

/-- What a path starts from: exactly two slashes are told apart from one, more are not. -/
def rootOf : List Char → String
  | '/' :: '/' :: '/' :: _ => "/"
  | '/' :: '/' :: _ => "//"
  | '/' :: _ => "/"
  | _ => ""

/-- A path as it is written. -/
def ofText (s : String) : Path :=
  ⟨rootOf s.toList, (Text.splitAt '/' s).filter fun part => part != "" && part != "."⟩

/-- The text of a path. -/
def text (p : Path) : String :=
  if p.root = "" && p.parts.isEmpty then "." else p.root ++ "/".intercalate p.parts

/-- A path followed from another one. -/
def join (p q : Path) : Path := if q.root = "" then { p with parts := p.parts ++ q.parts } else q

/-- The last part of a path. -/
def name (p : Path) : String := p.parts.getLastD ""

/-- The last dot of a name and what follows it, unless the dot is the first or the last
character. -/
def suffixOf (name : String) : String :=
  let cs := name.toList
  let extension := (cs.reverse.takeWhile (· != '.')).reverse
  let stem := cs.take (cs.length - extension.length - 1)
  if extension.isEmpty || stem.isEmpty then "" else String.ofList ('.' :: extension)

/-! ## Names as bytes -/

/-- Whether a character stands for a byte of a name that is no part of a character: such bytes are
read as the halves from U+DC80 to U+DCFF. -/
def isByte (c : Char) : Bool :=
  Text.isHalf c && 0xdc80 ≤ Text.codeOf c && Text.codeOf c ≤ 0xdcff

/-- Whether a name has bytes. -/
def isEncodable (name : String) : Bool := name.toList.all fun c => !Text.isHalf c || isByte c

/-- The number of bytes of a character in a name. -/
def byteCount (c : Char) : Nat := if isByte c then 1 else c.utf8Size

/-- The number of bytes of a name. -/
def byteSize (name : String) : Nat := (name.toList.map byteCount).foldl (· + ·) 0

/-- The bytes of a name. -/
def bytesOf (name : String) : ByteArray :=
  ⟨(name.toList.flatMap fun c =>
    if isByte c then [UInt8.ofNat (Text.codeOf c - 0xdc00)]
    else (String.singleton c).toUTF8.toList).toArray⟩

/-- The characters of some bytes from a position on. What is no part of a character is read byte by
byte. -/
def charsOf (bytes : ByteArray) : (count position : Nat) → List Char
  | 0, _ => []
  | count + 1, i =>
    match bytes.utf8DecodeChar? i, bytes[i]? with
    | some c, _ => c :: charsOf bytes count (i + c.utf8Size)
    | none, some byte => Text.charOf (0xdc00 + byte.toNat) :: charsOf bytes count (i + 1)
    | none, none => []

/-- A name as the file system knows it, which has only its bytes. -/
def nameOnDisk (name : String) : String :=
  if name.toList.any Text.isHalf then
    let bytes := bytesOf name
    String.ofList (charsOf bytes bytes.size 0)
  else name

/-- Whether the text of a path holds the null character, which no file name can. -/
def hasNull (p : Path) : Bool := p.parts.any fun part => part.toList.contains (Char.ofNat 0)

/-- What keeps a path from being one of the file system, if anything does. -/
def fault? (p : Path) : Option Fault :=
  if !p.parts.all isEncodable then some .unencodable
  else if p.hasNull then some .embeddedNull
  else none

end Path

end TypedClient

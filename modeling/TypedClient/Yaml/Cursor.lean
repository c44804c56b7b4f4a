import TypedClient.Fault

/-!
# Places in a text

Where a line starts and how far in a character stands carry meaning in YAML. A cursor is the text
that is left together with its index, line and column; `advance` is the one way to move it.
-/

namespace TypedClient.Yaml

/-- Why a text is no YAML document, or why a value in it cannot be built. -/
inductive YamlError where
  /-- The text breaks a rule of YAML. -/
  | malformed
  /-- A scalar does not have the form that its type asks for. -/
  | fault (f : Fault)
  deriving DecidableEq, Repr

/-- A place in a text. -/
structure Cursor where
  rest : List Char
  index : Nat := 0
  line : Nat := 0
  column : Nat := 0
  deriving Inhabited

/-- The byte order mark, which takes no column. -/
def byteOrderMark : Char := Char.ofNat 0xfeff

/-- Whether a character ends a line. -/
def isBreak (c : Char) : Bool :=
  c = '\n' || c = '\r' || c.toNat = 0x85 || c.toNat = 0x2028 || c.toNat = 0x2029

/-- Whether a line ends here, or the text. -/
def endsLine : Option Char → Bool
  | none => true
  | some c => isBreak c

/-- Whether a space stands here, or a line ends. -/
def endsWord : Option Char → Bool
  | none => true
  | some c => c = ' ' || isBreak c

/-- Whether a blank stands here, or a line ends. -/
def endsToken : Option Char → Bool
  | none => true
  | some c => c = ' ' || c = '\t' || isBreak c

namespace Cursor

/-- The character at a distance. -/
def peek (c : Cursor) (distance : Nat) : Option Char := c.rest[distance]?

/-- The character here. -/
def here (c : Cursor) : Option Char := c.rest.head?

/-- The place after the character here. A carriage return ends a line unless a line feed follows. -/
def advance (c : Cursor) : Cursor :=
  match c.rest with
  | [] => c
  | ch :: rest =>
    if isBreak ch && !(ch = '\r' && rest.head? = some '\n') then ⟨rest, c.index + 1, c.line + 1, 0⟩
    else ⟨rest, c.index + 1, c.line, if ch = byteOrderMark then c.column else c.column + 1⟩

/-- The place a number of characters further on. -/
def skip : Nat → Cursor → Cursor
  | 0, c => c
  | n + 1, c => skip n c.advance

/-- The characters here that satisfy a condition, and the place after them. -/
def span (c : Cursor) (p : Char → Bool) : List Char × Cursor :=
  let taken := c.rest.takeWhile p
  (taken, c.skip taken.length)

/-- The place after the characters here that satisfy a condition. -/
def skipWhile (c : Cursor) (p : Char → Bool) : Cursor := (c.span p).2

/-- The place after the spaces here. -/
def skipSpaces (c : Cursor) : Cursor := c.skipWhile (· = ' ')

/-- The place after the spaces here, as long as they stand before a column. -/
def skipIndent (c : Cursor) (column : Nat) : Cursor :=
  c.skip (min (column - c.column) (c.rest.takeWhile (· = ' ')).length)

/-- The line break here as it counts in a scalar, and the place after it. Without one, nothing. -/
def lineBreak (c : Cursor) : List Char × Cursor :=
  match c.rest with
  | '\r' :: '\n' :: _ => (['\n'], c.skip 2)
  | ch :: _ =>
    if ch = '\n' || ch = '\r' || ch.toNat = 0x85 then (['\n'], c.advance)
    else if isBreak ch then ([ch], c.advance)
    else ([], c)
  | [] => ([], c)

/-- Whether three characters and then a blank or the end of a line stand here. -/
def isMarker (c : Cursor) (mark : Char) : Bool :=
  c.rest.take 3 = [mark, mark, mark] && endsToken (c.peek 3)

/-- Whether a document starts or ends here, provided that a line does. -/
def isDocumentMarker (c : Cursor) : Bool := c.isMarker '-' || c.isMarker '.'

/-- The place after a comment, if one starts here. -/
def skipComment (c : Cursor) : Cursor :=
  if c.here = some '#' then c.skipWhile (!isBreak ·) else c

/-- The place after the rest of a line, on which nothing but a comment may stand. -/
def skipBlankLine (c : Cursor) : Except YamlError Cursor :=
  let c := c.skipSpaces.skipComment
  if endsLine c.here then .ok c.lineBreak.2 else .error .malformed

end Cursor

end TypedClient.Yaml

import TypedClient.Json.Reader
import TypedClient.Yaml.Cursor

/-!
# The text of scalars

A scalar may be written plain, between quotes, or as a block of lines. Each form has its own rules
for line breaks: a single break within a plain or quoted scalar becomes a space, and in a block it
depends on the style. The functions return the text and the place after it.

The loops run on fuel, for which the number of characters that are left is enough, as every turn
reads one or is the last.
-/

namespace TypedClient.Yaml

/-! ## Quoted scalars -/

/-- The line breaks between two lines of a quoted scalar and the place after them. A document marker
must not stand there. -/
def quotedBreaks : (fuel : Nat) → Cursor → Except YamlError (List Char × Cursor)
  | 0, c => .ok ([], c)
  | fuel + 1, c =>
    if c.isDocumentMarker then .error .malformed
    else
      let c := c.skipWhile fun ch => ch = ' ' || ch = '\t'
      match c.lineBreak with
      | ([], _) => .ok ([], c)
      | (found, c) => do
        let (more, c) ← quotedBreaks fuel c
        return (found ++ more, c)

/-- A line break as it counts within a scalar, with the further breaks that follow: a lone one is a
space. -/
def folded (first : List Char) (more : List Char) : List Char :=
  if first != ['\n'] then first ++ more
  else if more.isEmpty then [' ']
  else more

/-- The blanks or line breaks here within a quoted scalar, which must not be the end of the text. -/
def quotedSpaces (c : Cursor) : Except YamlError (List Char × Cursor) :=
  let (blanks, c) := c.span fun ch => ch = ' ' || ch = '\t'
  match c.here with
  | none => .error .malformed
  | some ch =>
    if !isBreak ch then .ok (blanks, c)
    else do
      let (first, c) := c.lineBreak
      let (more, c) ← quotedBreaks (c.rest.length + 1) c
      return (folded first more, c)

/-- The characters that short escapes stand for. -/
def shortEscapes : List (Char × Nat) :=
  [('0', 0x00), ('a', 0x07), ('b', 0x08), ('t', 0x09), ('\t', 0x09), ('n', 0x0a), ('v', 0x0b),
   ('f', 0x0c), ('r', 0x0d), ('e', 0x1b), (' ', 0x20), (Text.doubleQuote, 0x22), ('\\', 0x5c),
   ('/', 0x2f), ('N', 0x85), ('_', 0xa0), ('L', 0x2028), ('P', 0x2029)]

/-- The number of hexadecimal digits after an escape that gives a code. -/
def codeWidth? : Char → Option Nat
  | 'x' => some 2
  | 'u' => some 4
  | 'U' => some 8
  | _ => none

/-- The characters of an escape, whose backslash has been read. An escaped line break vanishes. -/
def escape (c : Cursor) : Except YamlError (List Char × Cursor) :=
  match c.here with
  | none => .error .malformed
  | some ch =>
    match shortEscapes.lookup ch, codeWidth? ch with
    | some code, _ => .ok ([Char.ofNat code], c.advance)
    | none, some width =>
      let c := c.advance
      let digits := c.rest.take width
      match Json.hexNumber? digits with
      | some code =>
        if digits.length < width then .error .malformed
        else if code > 0x7fffffff then .error (.fault .tooLarge)
        else if code > 0x10ffff then .error (.fault .badCharacter)
        else .ok ([Text.charOf code], c.skip width)
      | none => .error .malformed
    | none, none =>
      if isBreak ch then
        let (_, c) := c.lineBreak
        quotedBreaks (c.rest.length + 1) c
      else .error .malformed

/-- The rest of a scalar in double quotes. -/
def doubleQuoted : (fuel : Nat) → Cursor → Except YamlError (List Char × Cursor)
  | 0, _ => .error .malformed
  | fuel + 1, c =>
    match c.here with
    | none => .error .malformed
    | some ch =>
      if ch = Text.doubleQuote then .ok ([], c.advance)
      else do
        let (found, c) ←
          if ch = '\\' then escape c.advance
          else if endsToken (some ch) then quotedSpaces c
          else pure ([ch], c.advance)
        let (more, c) ← doubleQuoted fuel c
        return (found ++ more, c)

/-- The rest of a scalar in single quotes, within which a quote is written twice. -/
def singleQuoted : (fuel : Nat) → Cursor → Except YamlError (List Char × Cursor)
  | 0, _ => .error .malformed
  | fuel + 1, c =>
    match c.here with
    | none => .error .malformed
    | some ch =>
      let isQuote := ch = Text.apostrophe
      if isQuote && c.peek 1 != some Text.apostrophe then .ok ([], c.advance)
      else do
        let (found, c) ←
          if isQuote then pure ([ch], c.skip 2)
          else if endsToken (some ch) then quotedSpaces c
          else pure ([ch], c.advance)
        let (more, c) ← singleQuoted fuel c
        return (found ++ more, c)

/-- The scalar whose opening quote stands here. -/
def quotedScalar (c : Cursor) : Except YamlError (String × Cursor) := do
  let rest := c.advance
  let (text, c) ←
    if c.here = some Text.doubleQuote then doubleQuoted (rest.rest.length + 1) rest
    else singleQuoted (rest.rest.length + 1) rest
  return (String.ofList text, c)

/-! ## Plain scalars -/

/-- Whether a character has a meaning of its own within a flow collection. -/
def isFlowMark (c : Char) : Bool := [',', '[', ']', '\x7b', '\x7d'].contains c

/-- Whether a plain scalar ends before a character with the given successor. -/
def endsPlain (inFlow : Bool) (ch : Char) (next : Option Char) : Bool :=
  endsToken (some ch)
    || ch = ':' && (endsToken next || inFlow && next.any isFlowMark)
    || inFlow && (ch = '?' || isFlowMark ch)

/-- The characters of a plain scalar up to a blank or an indicator. -/
def plainRun (inFlow : Bool) : List Char → List Char
  | [] => []
  | ch :: rest => if endsPlain inFlow ch rest.head? then [] else ch :: plainRun inFlow rest

/-- The line breaks between two lines of a plain scalar and the place after them, or nothing if a
document marker stands among them. -/
def plainBreaks : (fuel : Nat) → Cursor → Option (List Char) × Cursor
  | 0, c => (some [], c)
  | fuel + 1, c =>
    match c.here with
    | some ' ' => plainBreaks fuel c.advance
    | _ =>
      match c.lineBreak with
      | ([], _) => (some [], c)
      | (found, c) =>
        if c.isDocumentMarker then (none, c)
        else
          let (more, c) := plainBreaks fuel c
          (more.map (found ++ ·), c)

/-- What lies between two runs of a plain scalar. -/
structure PlainGap where
  /-- The text that the gap counts as, which is nothing if the scalar cannot go on. -/
  text : List Char
  /-- Whether a line ended. -/
  brokeLine : Bool
  after : Cursor

/-- The gap here in a plain scalar. -/
def plainGap (c : Cursor) : PlainGap :=
  let (spaces, c) := c.span (· = ' ')
  match c.lineBreak with
  | ([], _) => ⟨spaces, false, c⟩
  | (first, c) =>
    if c.isDocumentMarker then ⟨[], true, c⟩
    else match plainBreaks (c.rest.length + 1) c with
      | (none, c) => ⟨[], true, c⟩
      | (some more, c) => ⟨folded first more, true, c⟩

/-- A plain scalar that has been read. -/
structure PlainScalar where
  text : List Char
  /-- Whether it was followed by the end of a line. -/
  brokeLine : Bool
  after : Cursor

/-- The plain scalar here, after a gap. Its further lines have to be indented. -/
def plainFrom (inFlow : Bool) (indent : Int) : (fuel : Nat) → (gap : PlainGap) → PlainScalar
  | 0, gap => ⟨[], gap.brokeLine, gap.after⟩
  | fuel + 1, gap =>
    let c := gap.after
    let run := if c.here = some '#' then [] else plainRun inFlow c.rest
    if run.isEmpty then ⟨[], gap.brokeLine, c⟩
    else
      let next := plainGap (c.skip run.length)
      let stops := next.text.isEmpty || next.after.here == some '#'
        || !inFlow && decide ((next.after.column : Int) < indent)
      if stops then ⟨gap.text ++ run, next.brokeLine, next.after⟩
      else
        let more := plainFrom inFlow indent fuel next
        ⟨gap.text ++ run ++ more.text, more.brokeLine, more.after⟩

/-- The plain scalar here. -/
def plainScalar (inFlow : Bool) (indent : Int) (c : Cursor) : PlainScalar :=
  plainFrom inFlow indent (c.rest.length + 1) ⟨[], false, c⟩

/-! ## Block scalars -/

/-- What becomes of the line breaks at the end of a block. -/
inductive Chomping where
  | strip
  | clip
  | keep
  deriving DecidableEq, Repr

/-- The chomping that an indicator asks for. -/
def chomping? : Option Char → Option Chomping
  | some '+' => some .keep
  | some '-' => some .strip
  | _ => none

/-- The indentation that an indicator asks for. -/
def indentDigit? : Option Char → Option Nat
  | some c => if c.isDigit then some (c.toNat - '0'.toNat) else none
  | none => none

/-- The head of a block: its chomping and its indentation, in either order, each of which may be
left out. -/
def blockHead (c : Cursor) : Except YamlError (Chomping × Option Nat × Cursor) := do
  let (chomp, width, c) := match chomping? c.here with
    | some chomp => match indentDigit? c.advance.here with
      | some width => (chomp, some width, c.skip 2)
      | none => (chomp, none, c.advance)
    | none => match indentDigit? c.here with
      | some width => match chomping? c.advance.here with
        | some chomp => (chomp, some width, c.skip 2)
        | none => (.clip, some width, c.advance)
      | none => (.clip, none, c)
  if width = some 0 || !endsWord c.here then throw .malformed
  return (chomp, width, ← c.skipBlankLine)

/-- The line breaks before a block whose indentation is not given, the greatest column on the way,
and the place after them. -/
def blockIndentation : (fuel : Nat) → (greatest : Nat) → Cursor → List Char × Nat × Cursor
  | 0, greatest, c => ([], greatest, c)
  | fuel + 1, greatest, c =>
    match c.here with
    | some ' ' => let c := c.advance; blockIndentation fuel (max greatest c.column) c
    | _ =>
      match c.lineBreak with
      | ([], _) => ([], greatest, c)
      | (found, c) =>
        let (more, greatest, c) := blockIndentation fuel greatest c
        (found ++ more, greatest, c)

/-- The line breaks between two lines of a block, and the place after them. -/
def blockBreaks (indent : Nat) : (fuel : Nat) → Cursor → List Char × Cursor
  | 0, c => ([], c)
  | fuel + 1, c =>
    let c := c.skipIndent indent
    match c.lineBreak with
    | ([], _) => ([], c)
    | (found, c) =>
      let (more, c) := blockBreaks indent fuel c
      (found ++ more, c)

/-- Whether a line of a block starts further in than the block. -/
def startsBlank (c : Cursor) : Bool := c.here == some ' ' || c.here == some '\t'

/-- The text of a block so far. -/
structure BlockText where
  text : List Char
  /-- The break that ends the last line. -/
  lastBreak : List Char
  /-- The breaks of the empty lines after it. -/
  emptyLines : List Char
  after : Cursor

/-- The lines of a block from one that starts here, after the breaks of empty lines. In a folded
block a single break between two lines that are not indented further becomes a space. -/
def blockLines (fold : Bool) (indent : Nat) : (fuel : Nat) → (emptyLines : List Char) → Cursor →
    BlockText
  | 0, emptyLines, c => ⟨[], [], emptyLines, c⟩
  | fuel + 1, emptyLines, c =>
    if c.column != indent || c.here.isNone then ⟨[], [], emptyLines, c⟩
    else
      let leadingBlank := startsBlank c
      let (line, c) := c.span (!isBreak ·)
      let (lineEnd, c) := c.lineBreak
      let (breaks, c) := blockBreaks indent (c.rest.length + 1) c
      let text := emptyLines ++ line
      if c.column != indent || c.here.isNone then ⟨text, lineEnd, breaks, c⟩
      else
        let folds := fold && lineEnd == ['\n'] && !leadingBlank && !startsBlank c
        let joint := if !folds then lineEnd else if breaks.isEmpty then [' '] else []
        let more := blockLines fold indent fuel breaks c
        { more with text := text ++ joint ++ more.text }

/-- The block whose indicator stands here, within an indentation. -/
def blockScalar (fold : Bool) (parentIndent : Int) (c : Cursor) :
    Except YamlError (String × Cursor) := do
  let (chomp, width, c) ← blockHead c.advance
  let least := max 1 (parentIndent + 1).toNat
  let (breaks, indent, c) := match width with
    | none =>
      let (breaks, greatest, c) := blockIndentation (c.rest.length + 1) 0 c
      (breaks, max least greatest, c)
    | some width =>
      let indent := least + width - 1
      let (breaks, c) := blockBreaks indent (c.rest.length + 1) c
      (breaks, indent, c)
  let block := blockLines fold indent (c.rest.length + 1) breaks c
  let finish := match chomp with
    | .strip => []
    | .clip => block.lastBreak
    | .keep => block.lastBreak ++ block.emptyLines
  return (String.ofList (block.text ++ finish), block.after)

end TypedClient.Yaml

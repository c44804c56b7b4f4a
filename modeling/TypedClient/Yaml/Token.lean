import TypedClient.Yaml.Scalars

/-!
# Tokens

A YAML text is cut into tokens. Indentation becomes tokens of its own: a block that starts further
in than its parent opens a collection, and a line further out closes it.

Whether a node is the key of a mapping shows only at the colon after it. So wherever a key may stand
its place is noted as a candidate, and the colon inserts the key token there. A candidate is given
up once its line has ended or it has become too long; where the indentation demands a key this is an
error.
-/

namespace TypedClient.Yaml

/-- A token of a YAML text. -/
inductive Token where
  | versionDirective (major : Nat)
  | tagDirective (handle leading : String)
  | otherDirective
  | documentStart
  | documentEnd
  | blockSequenceStart
  | blockMappingStart
  | blockEnd
  | flowSequenceStart
  | flowSequenceEnd
  | flowMappingStart
  | flowMappingEnd
  | blockEntry
  | flowEntry
  | key
  | value
  | alias (name : String)
  | anchor (name : String)
  | tag (handle : Option String) (suffix : String)
  | scalar (text : String) (isPlain : Bool)
  deriving DecidableEq, Repr, Inhabited

/-- A place where a key may have started. -/
structure KeyCandidate where
  flowLevel : Nat
  /-- The number of tokens before it. -/
  position : Nat
  /-- Whether the indentation demands a key. -/
  required : Bool
  start : Cursor

/-- A text that is being cut into tokens. -/
structure Scanner where
  cursor : Cursor
  tokens : Array Token := #[]
  /-- How many flow collections are open. -/
  flowLevel : Nat := 0
  /-- The column of the innermost open block, below zero if there is none. -/
  indent : Int := -1
  /-- The columns of the blocks around it. -/
  outerIndents : List Int := []
  /-- Whether a key may start here. -/
  allowsKey : Bool := true
  candidates : List KeyCandidate := []

namespace Scanner

/-- Whether a flow collection is open. -/
def inFlow (s : Scanner) : Bool := s.flowLevel != 0

/-- A token added. -/
def emit (s : Scanner) (t : Token) : Scanner := { s with tokens := s.tokens.push t }

/-- A token added for a number of characters. -/
def emitMark (s : Scanner) (width : Nat) (t : Token) : Scanner :=
  { s with cursor := s.cursor.skip width }.emit t

/-! ## Candidates for keys -/

/-- The greatest number of characters of a key. -/
def maxKeyLength : Nat := 1024

/-- Whether a candidate can no longer become a key here. -/
def isStale (s : Scanner) (k : KeyCandidate) : Bool :=
  k.start.line != s.cursor.line || s.cursor.index - k.start.index > maxKeyLength

/-- Candidates given up. A key that is demanded must not be among them. -/
def dropCandidates (s : Scanner) (drops : KeyCandidate → Bool) : Except YamlError Scanner :=
  let (dropped, kept) := s.candidates.partition drops
  if dropped.any (·.required) then .error .malformed else .ok { s with candidates := kept }

/-- The candidate of the current flow level given up. -/
def dropCandidate (s : Scanner) : Except YamlError Scanner :=
  s.dropCandidates (·.flowLevel == s.flowLevel)

/-- The current place noted as a candidate, if a key may start here. -/
def noteCandidate (s : Scanner) : Except YamlError Scanner := do
  if !s.allowsKey then return s
  let s ← s.dropCandidate
  let required := !s.inFlow && s.indent == s.cursor.column
  return { s with candidates := ⟨s.flowLevel, s.tokens.size, required, s.cursor⟩ :: s.candidates }

/-! ## Indentation -/

/-- The blocks closed that lie further in than a column. -/
def closeBlocks (column : Int) : (outer : List Int) → Scanner → Scanner
  | [], s => { s with outerIndents := [] }
  | indent :: outer, s =>
    if s.indent > column then
      closeBlocks column outer { s.emit .blockEnd with indent, outerIndents := outer }
    else s

/-- The blocks closed that lie further in than a column. Within a flow collection indentation has no
meaning. -/
def unwind (s : Scanner) (column : Int) : Scanner :=
  if s.inFlow then s else closeBlocks column s.outerIndents s

/-- A block opened at a column, if it lies further in than the innermost one, by a token at a
position. -/
def openBlock (s : Scanner) (column position : Nat) (t : Token) : Scanner :=
  if s.indent < column then
    { s with
      indent := column
      outerIndents := s.indent :: s.outerIndents
      tokens := s.tokens.insertIdxIfInBounds position t }
  else s

/-- A block opened here for an entry or key, where one must be allowed. -/
def openBlockHere (s : Scanner) (t : Token) : Except YamlError Scanner :=
  if s.inFlow then .ok s
  else if !s.allowsKey then .error .malformed
  else .ok (s.openBlock s.cursor.column s.tokens.size t)

/-! ## Tokens of one character or three -/

/-- A token for the start or end of a document. -/
def documentMark (s : Scanner) (t : Token) : Except YamlError Scanner := do
  let s ← (s.unwind (-1)).dropCandidate
  return { s with allowsKey := false }.emitMark 3 t

/-- A flow collection opened. -/
def flowStart (s : Scanner) (t : Token) : Except YamlError Scanner := do
  let s ← s.noteCandidate
  return { s with flowLevel := s.flowLevel + 1, allowsKey := true }.emitMark 1 t

/-- A flow collection closed. -/
def flowEnd (s : Scanner) (t : Token) : Except YamlError Scanner := do
  if !s.inFlow then throw .malformed
  let s ← s.dropCandidate
  return { s with flowLevel := s.flowLevel - 1, allowsKey := false }.emitMark 1 t

/-- An entry of a flow collection ended. -/
def flowEntry (s : Scanner) : Except YamlError Scanner := do
  let s ← s.dropCandidate
  return { s with allowsKey := true }.emitMark 1 .flowEntry

/-- An entry of a block sequence started. -/
def blockEntry (s : Scanner) : Except YamlError Scanner := do
  let s ← (← s.openBlockHere .blockSequenceStart).dropCandidate
  return { s with allowsKey := true }.emitMark 1 .blockEntry

/-- A key started by a question mark. -/
def explicitKey (s : Scanner) : Except YamlError Scanner := do
  let s ← (← s.openBlockHere .blockMappingStart).dropCandidate
  return { s with allowsKey := !s.inFlow }.emitMark 1 .key

/-- A value started by a colon. If there is a candidate it was a key, and so it may have started a
mapping. -/
def value (s : Scanner) : Except YamlError Scanner :=
  match s.candidates.find? (·.flowLevel == s.flowLevel) with
  | some k =>
    let s := { s with
      candidates := s.candidates.filter (·.flowLevel != s.flowLevel)
      tokens := s.tokens.insertIdxIfInBounds k.position .key
      allowsKey := false }
    let s := if s.inFlow then s else s.openBlock k.start.column k.position .blockMappingStart
    .ok (s.emitMark 1 .value)
  | none => do
    let s ← (← s.openBlockHere .blockMappingStart).dropCandidate
    return { s with allowsKey := !s.inFlow }.emitMark 1 .value

/-! ## Tokens with text -/

/-- Whether a character may stand in the name of an anchor or directive. -/
def isWordChar (c : Char) : Bool := c.isAlphanum || c = '-' || c = '_'

/-- The name here, which must not be empty. -/
def word (c : Cursor) : Except YamlError (String × Cursor) :=
  match c.span isWordChar with
  | ([], _) => .error .malformed
  | (name, c) => .ok (String.ofList name, c)

/-- Whether the name of an anchor or alias may end here. -/
def endsAnchor : Option Char → Bool
  | none => true
  | some c => endsToken (some c) || ['?', ':', ',', ']', '\x7d', '%', '@', '\x60'].contains c

/-- An anchor or alias. -/
def anchored (s : Scanner) (t : String → Token) : Except YamlError Scanner := do
  let s ← s.noteCandidate
  let (name, c) ← word s.cursor.advance
  if !endsAnchor c.here then throw .malformed
  return { s with cursor := c, allowsKey := false }.emit (t name)

/-- Whether a character may stand in the text of a tag. -/
def isTagChar (c : Char) : Bool :=
  c.isAlphanum || "-;/?:@&=+$,_.!~*'()[]%".toList.contains c

/-- The bytes that escapes here give, and the place after them. -/
def tagBytes : (fuel : Nat) → Cursor → Except YamlError (List UInt8 × Cursor)
  | 0, c => .ok ([], c)
  | fuel + 1, c =>
    if c.here != some '%' then .ok ([], c)
    else
      let digits := c.advance.rest.take 2
      match Json.hexNumber? digits with
      | some code => do
        if digits.length < 2 then throw .malformed
        let (more, c) ← tagBytes fuel (c.skip 3)
        return (code.toUInt8 :: more, c)
      | none => .error .malformed

/-- The text of a tag here, escapes read as UTF-8. -/
def tagText : (fuel : Nat) → Cursor → Except YamlError (List Char × Cursor)
  | 0, c => .ok ([], c)
  | fuel + 1, c =>
    match c.here with
    | none => .ok ([], c)
    | some ch =>
      if !isTagChar ch then .ok ([], c)
      else if ch != '%' then do
        let (more, c) ← tagText fuel c.advance
        return (ch :: more, c)
      else do
        let (bytes, c) ← tagBytes (c.rest.length + 1) c
        match String.fromUTF8? ⟨bytes.toArray⟩ with
        | none => throw .malformed
        | some text =>
          let (more, c) ← tagText fuel c
          return (text.toList ++ more, c)

/-- The text of a tag here, which must not be empty. -/
def tagSuffix (c : Cursor) : Except YamlError (String × Cursor) := do
  match ← tagText (c.rest.length + 1) c with
  | ([], _) => throw .malformed
  | (text, c) => return (String.ofList text, c)

/-- The handle of a tag here: an exclamation mark alone, or a name between two. -/
def tagHandle (c : Cursor) : Except YamlError (String × Cursor) :=
  if c.here != some '!' then .error .malformed
  else if c.peek 1 = some ' ' then .ok ("!", c.advance)
  else
    let (name, after) := c.advance.span isWordChar
    if after.here != some '!' then .error .malformed
    else .ok (String.ofList ('!' :: name ++ ['!']), after.advance)

/-- The tag here. -/
def tagToken (c : Cursor) : Except YamlError (Token × Cursor) := do
  match c.peek 1 with
  | some '<' =>
    let (suffix, c) ← tagSuffix (c.skip 2)
    if c.here != some '>' then throw .malformed
    return (.tag none suffix, c.advance)
  | next =>
    if endsToken next then return (.tag none "!", c.advance)
    let rest := c.advance.rest.takeWhile fun ch => !endsWord (some ch)
    let (handle, c) ← if rest.contains '!' then tagHandle c else pure ("!", c.advance)
    let (suffix, c) ← tagSuffix c
    return (.tag (some handle) suffix, c)

/-- A tag. -/
def tagged (s : Scanner) : Except YamlError Scanner := do
  let s ← s.noteCandidate
  let (t, c) ← tagToken s.cursor
  if !endsWord c.here then throw .malformed
  return { s with cursor := c, allowsKey := false }.emit t

/-- The number here in a directive. -/
def directiveNumber (c : Cursor) : Except YamlError (Nat × Cursor) :=
  match c.span Char.isDigit with
  | ([], _) => .error .malformed
  | (digits, c) =>
    if digits.length > Numeral.maxDigits then .error (.fault .tooManyDigits)
    else .ok (Json.decimalNumber digits, c)

/-- The directive whose name has been read. -/
def directiveToken (name : String) (c : Cursor) : Except YamlError (Token × Cursor) := do
  if name = "YAML" then
    let (major, c) ← directiveNumber c.skipSpaces
    if c.here != some '.' then throw .malformed
    let (_, c) ← directiveNumber c.advance
    if !endsWord c.here then throw .malformed
    return (.versionDirective major, c)
  else if name = "TAG" then
    let (handle, c) ← tagHandle c.skipSpaces
    if c.here != some ' ' then throw .malformed
    let (leading, c) ← tagSuffix c.skipSpaces
    if !endsWord c.here then throw .malformed
    return (.tagDirective handle leading, c)
  else return (.otherDirective, c.skipWhile (!isBreak ·))

/-- A directive. -/
def directive (s : Scanner) : Except YamlError Scanner := do
  let s ← (s.unwind (-1)).dropCandidate
  let (name, c) ← word s.cursor.advance
  if !endsWord c.here then throw .malformed
  let (t, c) ← directiveToken name c
  let c ← c.skipBlankLine
  return { s with cursor := c, allowsKey := false }.emit t

/-- A block scalar. -/
def block (s : Scanner) (fold : Bool) : Except YamlError Scanner := do
  let s ← s.dropCandidate
  let (text, c) ← blockScalar fold s.indent s.cursor
  return { s with cursor := c, allowsKey := true }.emit (.scalar text false)

/-- A quoted scalar. -/
def quoted (s : Scanner) : Except YamlError Scanner := do
  let s ← s.noteCandidate
  let (text, c) ← quotedScalar s.cursor
  return { s with cursor := c, allowsKey := false }.emit (.scalar text false)

/-- A plain scalar. -/
def plain (s : Scanner) : Except YamlError Scanner := do
  let s ← s.noteCandidate
  let found := plainScalar s.inFlow (s.indent + 1) s.cursor
  return { s with cursor := found.after, allowsKey := found.brokeLine }.emit
    (.scalar (String.ofList found.text) true)

/-! ## The whole text -/

/-- Spaces, comments and line breaks skipped. After a line break a block key may start. -/
def skipGap : (fuel : Nat) → Scanner → Scanner
  | 0, s => s
  | fuel + 1, s =>
    let c := s.cursor.skipSpaces.skipComment
    match c.lineBreak with
    | ([], _) => { s with cursor := c }
    | (_, c) => skipGap fuel { s with cursor := c, allowsKey := !s.inFlow || s.allowsKey }

/-- The gap before the next token skipped, at the very start a byte order mark too. -/
def skipToToken (s : Scanner) : Scanner :=
  let s := if s.cursor.index = 0 && s.cursor.here = some byteOrderMark then
      { s with cursor := s.cursor.advance }
    else s
  skipGap (s.cursor.rest.length + 1) s

/-- The characters that do not start a plain scalar, unless a few of them have a successor. -/
def indicators : List Char :=
  ['-', '?', ':', ',', '[', ']', '\x7b', '\x7d', '#', '&', '*', '!', '|', '>', Text.apostrophe,
   Text.doubleQuote, '%', '@', '\x60']

/-- Whether a plain scalar starts with a character. -/
def startsPlain (s : Scanner) (ch : Char) : Bool :=
  !endsToken (some ch) && !indicators.contains ch
    || !endsToken (s.cursor.peek 1) && (ch = '-' || !s.inFlow && (ch = '?' || ch = ':'))

/-- The token that starts with a character. -/
def next (s : Scanner) (ch : Char) : Except YamlError Scanner :=
  let atLineStart := s.cursor.column = 0
  let standsAlone := endsToken (s.cursor.peek 1)
  if ch = '%' && atLineStart then s.directive
  else if atLineStart && s.cursor.isMarker '-' then s.documentMark .documentStart
  else if atLineStart && s.cursor.isMarker '.' then s.documentMark .documentEnd
  else if ch = '[' then s.flowStart .flowSequenceStart
  else if ch = '\x7b' then s.flowStart .flowMappingStart
  else if ch = ']' then s.flowEnd .flowSequenceEnd
  else if ch = '\x7d' then s.flowEnd .flowMappingEnd
  else if ch = ',' then s.flowEntry
  else if ch = '-' && standsAlone then s.blockEntry
  else if ch = '?' && (s.inFlow || standsAlone) then s.explicitKey
  else if ch = ':' && (s.inFlow || standsAlone) then s.value
  else if ch = '*' then s.anchored .alias
  else if ch = '&' then s.anchored .anchor
  else if ch = '!' then s.tagged
  else if ch = '|' && !s.inFlow then s.block false
  else if ch = '>' && !s.inFlow then s.block true
  else if ch = Text.apostrophe || ch = Text.doubleQuote then s.quoted
  else if s.startsPlain ch then s.plain
  else .error .malformed

/-- What a scanner ends with: the tokens, and the error that cut them short, if there was one. -/
structure Outcome where
  tokens : Array Token
  error : Option YamlError := none

/-- The outcome of an error at the next token. A token that might still turn out to start a key
cannot be told from that key, so it and those after it are not given out. -/
def cutShort (s : Scanner) (e : YamlError) : Outcome :=
  let open? := (s.candidates.filter (!s.isStale ·)).map (·.position)
  ⟨s.tokens.take (open?.foldl min s.tokens.size), some e⟩

/-- The next token added, if there is one, and whether there is. -/
def step (s : Scanner) : Except YamlError (Scanner × Bool) := do
  let s := s.skipToToken
  let s ← s.dropCandidates s.isStale
  match s.cursor.here with
  | none => return (← (s.unwind (-1)).dropCandidate, false)
  | some ch => return (← (s.unwind s.cursor.column).next ch, true)

/-- The tokens up to the end of the text. -/
def run : (fuel : Nat) → Scanner → Outcome
  | 0, s => ⟨s.tokens, some .malformed⟩
  | fuel + 1, s =>
    match s.step with
    | .error e => s.cutShort e
    | .ok (s, false) => ⟨s.tokens, none⟩
    | .ok (s, true) => run fuel s

/-- The tokens of a text. -/
def ofText (cs : List Char) : Outcome := run (cs.length + 2) { cursor := { rest := cs } }

end Scanner

end TypedClient.Yaml

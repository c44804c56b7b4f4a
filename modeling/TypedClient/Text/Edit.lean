/-!
# Editing text

The few edits that output and names are made with: one character replaced by several, a pair of
characters replaced by several, text cut at every occurrence of a character, and text put between
single quotes. They work on lists of characters, so each is one recursion.
-/

namespace TypedClient.Text

/-- The character that opens and closes single-quoted text. -/
def apostrophe : Char := '\x27'

/-- The character that opens and closes double-quoted text. -/
def doubleQuote : Char := '\x22'

/-- Every occurrence of a character replaced by a text. -/
def replaceChar (old : Char) (new : List Char) (cs : List Char) : List Char :=
  cs.flatMap fun c => if c = old then new else [c]

/-- Every occurrence of two adjacent characters replaced by a text. Occurrences are found from left
to right and do not overlap. -/
def replacePair (first second : Char) (new : List Char) : List Char → List Char
  | c :: d :: rest =>
    if c = first && d = second then new ++ replacePair first second new rest
    else c :: replacePair first second new (d :: rest)
  | cs => cs

/-- The pieces between the occurrences of a character, of which there is one more than there are
occurrences. -/
def piecesAt (mark : Char) : List Char → List (List Char)
  | [] => [[]]
  | c :: rest =>
    if c = mark then [] :: piecesAt mark rest
    else match piecesAt mark rest with
      | [] => [[c]]
      | piece :: pieces => (c :: piece) :: pieces

theorem piecesAt_ne_nil (mark : Char) (cs : List Char) : piecesAt mark cs ≠ [] := by
  cases cs with
  | nil => simp [piecesAt]
  | cons c rest =>
      rw [piecesAt]
      split
      · simp
      · split <;> simp

/-- The texts between the occurrences of a character. -/
def splitAt (mark : Char) (s : String) : List String :=
  (piecesAt mark s.toList).map String.ofList

/-- A character as it stands between single quotes: a backslash or a quote has a backslash before
it. -/
def escapedChar (c : Char) : List Char :=
  if c = '\\' || c = apostrophe then ['\\', c] else [c]

/-- A text as it stands between single quotes. -/
def escapeQuotes (s : String) : String := String.ofList (s.toList.flatMap escapedChar)

/-- Text between single quotes, as source code of the generated client writes it. -/
def singleQuoted (s : String) : String :=
  "'" ++ escapeQuotes s ++ "'"

end TypedClient.Text

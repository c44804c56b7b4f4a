import TypedClient.Document.Tree
import TypedClient.Fault

/-!
# JSON text

A value as JSON, either on one line or with every element on a line of its own. The text is ASCII:
other characters are written as the codes of their UTF-16 units. Keys that are numbers, truth values
or null become text, and a pair becomes a list. Dates, bytes and sets have no JSON form, and neither
has a part that contains itself.
-/

namespace TypedClient.JsonText

/-- A UTF-16 unit as an escape. -/
def unitEscape (unit : Nat) : List Char := '\\' :: 'u' :: Text.hexDigits 4 unit

/-- One character of a JSON string. -/
def escapedChar (c : Char) : List Char :=
  let n := Text.codeOf c
  if c = Text.doubleQuote then ['\\', Text.doubleQuote]
  else if c = '\\' then ['\\', '\\']
  else if c = '\n' then ['\\', 'n']
  else if c = '\r' then ['\\', 'r']
  else if c = '\t' then ['\\', 't']
  else if n = 0x0c then ['\\', 'f']
  else if n = 0x08 then ['\\', 'b']
  else if 0x20 ≤ n && n < 0x7f then [c]
  else if n < 0x10000 then unitEscape n
  else unitEscape (0xd800 + (n - 0x10000) / 0x400) ++ unitEscape (0xdc00 + (n - 0x10000) % 0x400)

/-- A text as a JSON string. -/
def string (s : String) : String :=
  String.ofList (Text.doubleQuote :: s.toList.flatMap escapedChar ++ [Text.doubleQuote])

/-- A scalar as JSON. -/
def scalar : Scalar → Except Fault String
  | .null => .ok "null"
  | .bool b => .ok (if b then "true" else "false")
  | .int n => .ok (Decimal.signedString n)
  | .float x => .ok x.jsonText
  | .text s => .ok (string s)
  | .date _ => .error .unserializable
  | .moment _ => .error .unserializable
  | .bytes _ => .error .unserializable

/-- A key as JSON: whatever it is becomes a string. -/
def key : Scalar → Except Fault String
  | .text s => .ok (string s)
  | s => (scalar s).map string

/-- How the elements of a container are set apart. -/
structure Layout where
  /-- What follows the opening bracket, by the depth of the elements. -/
  opening : Nat → String
  /-- What stands between two elements. -/
  between : Nat → String
  /-- What precedes the closing bracket, by the depth of the container. -/
  closing : Nat → String

/-- A line break and two spaces for each level. -/
def lineBreak (depth : Nat) : String :=
  "\n" ++ String.ofList (List.replicate (2 * depth) ' ')

/-- Everything on one line. -/
def oneLine : Layout := ⟨fun _ => "", fun _ => ", ", fun _ => ""⟩

/-- Every element on a line of its own, two spaces further in. -/
def indented : Layout := ⟨lineBreak, fun depth => "," ++ lineBreak depth, lineBreak⟩

/-- The elements of a container at a depth between its brackets. -/
def enclose (layout : Layout) (depth : Nat) (opening closing : String) (elements : List String) :
    String :=
  if elements.isEmpty then opening ++ closing
  else opening ++ layout.opening (depth + 1) ++ (layout.between (depth + 1)).intercalate elements
    ++ layout.closing depth ++ closing

mutual

/-- A tree as JSON, its first line at a depth. -/
def render (layout : Layout) (depth : Nat) : Tree → Except Fault String
  | .scalar s => scalar s
  | .sequence items => do
    let elements ← renderItems layout (depth + 1) items
    return enclose layout depth "[" "]" elements
  | .mapping entries => do
    let elements ← renderEntries layout (depth + 1) entries
    return enclose layout depth "\x7b" "\x7d" elements
  | .typed .pair items => do
    let elements ← renderItems layout (depth + 1) items
    return enclose layout depth "[" "]" elements
  | .typed .set _ => .error .unserializable
  | .sequenceAgain => .error .circular
  | .mappingAgain => .error .circular
  | .typedAgain _ => .error .circular

/-- The elements of a sequence as JSON. -/
def renderItems (layout : Layout) (depth : Nat) : List Tree → Except Fault (List String)
  | [] => .ok []
  | t :: rest => do
    let first ← render layout depth t
    let others ← renderItems layout depth rest
    return first :: others

/-- The entries of a mapping as JSON. -/
def renderEntries (layout : Layout) (depth : Nat) :
    List (Scalar × Tree) → Except Fault (List String)
  | [] => .ok []
  | (k, t) :: rest => do
    let name ← key k
    let value ← render layout depth t
    let others ← renderEntries layout depth rest
    return (name ++ ": " ++ value) :: others

end

end TypedClient.JsonText

namespace TypedClient

/-- A tree as JSON on one line. -/
def Tree.json (t : Tree) : Except Fault String := JsonText.render JsonText.oneLine 0 t

/-- A tree as JSON with every element on a line of its own. -/
def Tree.jsonIndented (t : Tree) : Except Fault String := JsonText.render JsonText.indented 0 t

/-- A value as JSON on one line. -/
def Store.json (store : Store) (v : Value) : Except Fault String := (store.tree v).json

end TypedClient

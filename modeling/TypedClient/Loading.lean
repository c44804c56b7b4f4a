import TypedClient.Failure
import TypedClient.Files.Lines
import TypedClient.Files.Tree
import TypedClient.Json.Reader
import TypedClient.Options
import TypedClient.Yaml.Reader

/-!
# Loading documents

Documents are files or are fetched from an address. They are JSON if the name or the type of the
content says so, and YAML otherwise. Whatever is wrong with a document is an error that names its
source, except that a malformed scalar remains a fault.
-/

namespace TypedClient

/-- What an address answers with. -/
inductive HttpReply where
  /-- No answer, for this reason. -/
  | unavailable (reason : String)
  | response (status : Int) (reason contentType text : String)
  deriving DecidableEq, Repr

/-- What a command can reach: files, and addresses with their answers. -/
structure Surroundings where
  files : FileTree := {}
  http : List (String × HttpReply) := []

/-- A document that has been loaded: its number within the store. -/
structure Loaded where
  store : Store
  document : Nat

/-- The number and the wording of a failure to open a file. -/
def openError : Fault → Option (Nat × String)
  | .fileMissing => some (2, "No such file or directory")
  | .notADirectory => some (20, "Not a directory")
  | .isADirectory => some (21, "Is a directory")
  | .nameTooLong => some (36, "File name too long")
  | _ => none

/-- A failure to open a file as messages show it. -/
def openErrorText (fault : Fault) (p : Path) : Option String :=
  (openError fault).map fun (number, text) =>
    "[Errno " ++ Decimal.digitString number ++ "] " ++ text ++ ": " ++ Text.quoted p.text

/-- The text of a file, or why it has none. -/
def readText (files : FileTree) (p : Path) : Except Fault String := do
  match textOfBytes (← files.read p) with
  | some text => return text
  | none => throw .undecodable

/-- An error of a source. -/
def sourceError (source detail : String) : Failure := .schema (.document detail (some source))

/-- The value of a JSON text. -/
def readJson (store : Store) (source text : String) : Except Failure (Store × Value) :=
  match Json.read text with
  | .ok t => .ok (t.plant store)
  | .error .tooManyDigits => .error (.malformed .tooManyDigits)
  | .error .tooDeep => .error (.malformed .tooDeep)
  | .error (.problem what remaining) =>
    .error (sourceError source ("Invalid JSON: " ++ Json.describe text what remaining))

/-- The value of a YAML text. -/
def readYaml (store : Store) (source text : String) : Except Failure (Store × Value) :=
  match Yaml.read store text with
  | .ok found => .ok found
  | .error .malformed => .error (sourceError source "Invalid YAML")
  | .error (.fault fault) => .error (.malformed fault)

/-- The document that a text is, which has to be a mapping. -/
def readDocument (store : Store) (source text : String) (asJson : Bool) :
    Except Failure Loaded := do
  match ← if asJson then readJson store source text else readYaml store source text with
  | (store, .mapping id) => return ⟨store, id⟩
  | _ => throw (sourceError source "Schema root must be a mapping")

/-- Whether a file is JSON by its name. -/
def hasJsonName (p : Path) : Bool := Text.lowered (Path.suffixOf p.name) = ".json"

/-- The document of a file. -/
def loadFile (files : FileTree) (store : Store) (p : Path) : Except Failure Loaded :=
  match readText files p with
  | .ok text => readDocument store p.text text (hasJsonName p)
  | .error fault =>
    match openErrorText fault p with
    | some text => .error (sourceError p.text ("Failed to read schema file: " ++ text))
    | none => .error (.malformed fault)

/-- Whether a text contains another one. -/
def containsText (part : List Char) : List Char → Bool
  | [] => part.isEmpty
  | c :: rest => part.isPrefixOf (c :: rest) || containsText part rest

/-- Why an answer is none, if its status says so. -/
def statusError (url : String) (status : Int) (reason : String) : Option String :=
  let text (kind : String) : String :=
    Decimal.signedString status ++ kind ++ reason ++ " for url: " ++ url
  if 400 ≤ status && status < 500 then some (text " Client Error: ")
  else if 500 ≤ status && status < 600 then some (text " Server Error: ")
  else none

/-- The document at an address. -/
def fetch (http : List (String × HttpReply)) (store : Store) (url : String) :
    Except Failure Loaded :=
  let refuse (reason : String) :=
    Except.error (sourceError url ("Failed to fetch schema: " ++ reason))
  match (http.lookup url).getD (.unavailable "unreachable") with
  | .unavailable reason => refuse reason
  | .response status reason contentType text =>
    match statusError url status reason with
    | some error => refuse error
    | none => readDocument store url text (containsText "json".toList contentType.toList)

/-- Whether a source is an address. -/
def isRemote (source : String) : Bool :=
  "http://".toList.isPrefixOf source.toList || "https://".toList.isPrefixOf source.toList

/-- The document of a source. -/
def loadDocument (around : Surroundings) (store : Store) (source : Value) : Except Failure Loaded :=
  match source with
  | .scalar (.text s) =>
    if isRemote s then fetch around.http store s else loadFile around.files store (Path.ofText s)
  | _ => .error (.malformed .notAPath)

/-- The options of a file, with overrides. -/
def loadOptions (files : FileTree) (store : Store) (p : Path) (overrides : List (String × Value)) :
    Except Failure (Store × ClientOptions) := do
  let loaded ← loadFile files store p
  let entries := loaded.store.entries loaded.document
  let options ← ClientOptions.ofEntries loaded.store entries overrides
  return (loaded.store, options)

end TypedClient

import TypedClient.Document.Access
import TypedClient.Failure
import TypedClient.Files.Path
import TypedClient.Naming.Words

/-!
# Options

The options of a run come from a mapping, whose keys may be spelled in snake case or camel case, and
from overrides, which win. `ClientOptions.ofEntries` refuses unknown keys first and then checks the
effective values one option after the other.
-/

namespace TypedClient

/-- The language that the client is generated in. -/
inductive Language where
  | ts
  | js
  deriving DecidableEq, Repr, Inhabited

/-- The name of a language, which is also the extension of its files. -/
def Language.name : Language → String
  | ts => "ts"
  | js => "js"

/-- How generated code is indented, by the ways to ask for it. -/
inductive Indent where
  | tab
  | tabCharacter
  | four
  | two
  | spaces
  deriving DecidableEq, Repr, Inhabited

namespace Indent

/-- The ways to ask for an indentation. -/
def all : List Indent := [tab, tabCharacter, four, two, spaces]

/-- The name of an indentation. -/
def name : Indent → String
  | tab => "tab"
  | tabCharacter => "\t"
  | four => "4"
  | two => "2"
  | spaces => "spaces"

/-- One level of indentation. -/
def unit : Indent → String
  | tab => "\t"
  | tabCharacter => "\t"
  | four => "    "
  | two => "  "
  | spaces => "  "

end Indent

/-- The function that a client asks for credentials unless another is given. -/
def defaultGetAuthorization : String :=
  "function getAuthorization(security, securityDefinitions, op) \x7b\n"
    ++ "  return Promise.resolve(null)\n\x7d"

/-- The function that applies credentials unless another is given. -/
def defaultApplyAuthorization : String :=
  "function applyAuthorization(req, auth) \x7b\n  return req\n\x7d"

/-- The options of a run. Those whose values are only passed on, or only tested for truth, are kept
as they were given. -/
structure ClientOptions where
  src : Value := .null
  outDir : Path := ⟨"", ["generated"]⟩
  language : Language := .ts
  indent : Indent := .spaces
  semicolon : Value := .bool false
  host : Value := .null
  schemes : Value := .null
  securityDefinitions : Value := .null
  timeout : Value := .null
  getAuthorization : Value := .text defaultGetAuthorization
  applyAuthorization : Value := .text defaultApplyAuthorization
  strict : Value := .bool false
  deriving DecidableEq, Repr

namespace ClientOptions

/-- The names of the options. -/
def names : List String :=
  ["src", "out_dir", "language", "indent", "semicolon", "host", "schemes", "security_definitions",
   "timeout", "get_authorization", "apply_authorization", "strict"]

/-- The name of the option that a key means, if it means one. -/
def nameOf (key : String) : String := Naming.slug key key

/-- The options of a mapping by name. The first key that means no option is refused. -/
def named (store : Store) : Entries → Except OptionError (List (String × Value))
  | [] => .ok []
  | (key, value) :: rest =>
    let name := nameOf key.plain
    if names.contains name then (named store rest).map ((name, value) :: ·)
    else .error ⟨key.plain, store.quoted value, "a known option"⟩

/-- The overrides that are given. They are named exactly. -/
def overriding (overrides : List (String × Value)) : Except Fault (List (String × Value)) :=
  let given := overrides.filter fun (_, value) => !value.isNull
  if given.all fun (name, _) => names.contains name then .ok given else .error .unknownSetting

/-- The value of an option: the last one wins, and the default stands if there is none. -/
def effective (values : List (String × Value)) (name : String) (default : Value) : Value :=
  (values.reverse.lookup name).getD default

/-- The output directory. -/
def outDirOf : Value → Except Fault Path
  | .scalar (.text s) => .ok (Path.ofText s)
  | _ => .error .notAPath

/-- The language of a name. -/
def languageOf (store : Store) (v : Value) : Except Failure Language :=
  match v with
  | .scalar (.text "ts") => .ok .ts
  | .scalar (.text "js") => .ok .js
  | v =>
    if store.isSought v then .error (.option ⟨"language", store.quoted v, "one of js, ts"⟩)
    else .error (.malformed .unhashable)

/-- The indentation of a name. Numbers will do too. -/
def indentOf (store : Store) (v : Value) : Except OptionError Indent :=
  let asked := store.plain v
  match Indent.all.find? (·.name = asked) with
  | some indent => .ok indent
  | none => .error ⟨"indent", Text.quoted asked, "one of 2, 4, tab, spaces"⟩

/-- Whether a value is a time limit: none, or a non-negative integer, as which a truth value
counts. -/
def isTimeout : Value → Bool
  | .scalar .null => true
  | .scalar (.bool _) => true
  | .scalar (.int n) => 0 ≤ n
  | _ => false

/-- Whether a value is a list of schemes, or none. -/
def isSchemes : Value → Bool
  | .scalar .null => true
  | .sequence _ => true
  | _ => false

/-- The options with these values. -/
def ofValues (store : Store) (values : List (String × Value)) : Except Failure ClientOptions := do
  let outDir ← Failure.ofFault (outDirOf (effective values "out_dir" (.text "generated")))
  let language ← languageOf store (effective values "language" (.text "ts"))
  let indent ← match indentOf store (effective values "indent" (.text "spaces")) with
    | .ok indent => pure indent
    | .error e => throw (.option e)
  let timeout := effective values "timeout" .null
  if !isTimeout timeout then
    throw (.option ⟨"timeout", store.quoted timeout, "a non-negative integer"⟩)
  let schemes := effective values "schemes" .null
  if !isSchemes schemes then
    throw (.option ⟨"schemes", store.quoted schemes, "a list of strings"⟩)
  return {
    outDir, language, indent, timeout, schemes
    src := effective values "src" .null
    semicolon := effective values "semicolon" (.bool false)
    host := effective values "host" .null
    securityDefinitions := effective values "security_definitions" .null
    getAuthorization := effective values "get_authorization" (.text defaultGetAuthorization)
    applyAuthorization := effective values "apply_authorization" (.text defaultApplyAuthorization)
    strict := effective values "strict" (.bool false) }

/-- The options of a mapping with overrides, of which those that are null do not count. -/
def ofEntries (store : Store) (entries : Entries) (overrides : List (String × Value)) :
    Except Failure ClientOptions := do
  let values ← match named store entries with
    | .ok values => pure values
    | .error e => throw (.option e)
  let given ← Failure.ofFault (overriding overrides)
  ofValues store (values ++ given)

/-- The options by name, in order. -/
def toEntries (o : ClientOptions) : Entries :=
  [(.text "src", o.src), (.text "out_dir", .text o.outDir.text),
   (.text "language", .text o.language.name), (.text "indent", .text o.indent.name),
   (.text "semicolon", o.semicolon), (.text "host", o.host), (.text "schemes", o.schemes),
   (.text "security_definitions", o.securityDefinitions), (.text "timeout", o.timeout),
   (.text "get_authorization", o.getAuthorization),
   (.text "apply_authorization", o.applyAuthorization), (.text "strict", o.strict)]

end ClientOptions

end TypedClient

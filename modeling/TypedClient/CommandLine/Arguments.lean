import TypedClient.Number.Numeral

/-!
# Arguments

A command takes options and at most one positional argument. An option is named in full or by any
beginning that no other option shares, and its value follows it, either after an equals sign or as
the next argument. Two dashes end the options. What looks like a negative number, is a lone dash, or
holds a space is no option. Where an option is a rival of the positional argument, the two are never
given together. Two dashes after an equals sign give an option, but nothing as its value.
-/

namespace TypedClient.CommandLine

/-- What an option takes. -/
inductive OptionKind where
  | flag
  | text
  | integer
  | choice (names : List String)
  /-- The request for help, which ends the command. -/
  | help
  deriving DecidableEq, Repr

/-- An option of a command: its spellings, the first of which names it. -/
structure OptionSpec where
  name : String
  kind : OptionKind
  deriving DecidableEq, Repr

/-- The value of an option. -/
inductive OptionValue where
  | set
  | text (s : String)
  | integer (n : Int)
  /-- Nothing, though the option was given. -/
  | nothing
  deriving DecidableEq, Repr

/-- The help options that every command has. -/
def helpOptions : List OptionSpec := [⟨"-h", .help⟩, ⟨"--help", .help⟩]

/-- An argument by the role that its form gives it. -/
inductive Argument where
  | positional (s : String)
  | separator
  | option (spec : OptionSpec) (attached : Option String)
  | unknown
  deriving DecidableEq, Repr

/-- Why arguments were not accepted. -/
inductive ArgumentsError where
  /-- Help was asked for. -/
  | help
  | usage
  deriving DecidableEq, Repr

/-- A text cut at its first equals sign, if it has one. -/
def cutAtEquals (cs : List Char) : String × Option String :=
  match cs.span (· != '=') with
  | (name, _ :: value) => (String.ofList name, some (String.ofList value))
  | (name, []) => (String.ofList name, none)

/-- Whether a character is a decimal digit of any script. -/
def isDigit (c : Char) : Bool := (Text.digitValue? c).isSome

/-- Whether a text looks like a number without its sign. One line feed at its end does no harm. -/
def isUnsignedNumber (cs : List Char) : Bool :=
  let form := if cs.getLast? = some '\n' then cs.dropLast else cs
  match form.span isDigit with
  | (digits, []) => !digits.isEmpty
  | (_, '.' :: fraction) => !fraction.isEmpty && fraction.all isDigit
  | _ => false

/-- Whether a text looks like a negative number. -/
def isNegativeNumber : List Char → Bool
  | '-' :: rest => isUnsignedNumber rest
  | _ => false

/-- The options that an argument may mean by its beginning, with the value attached to it. A single
dash and a letter may have its value attached without an equals sign. -/
def matchingOptions (specs : List OptionSpec) (cs : List Char) :
    List (OptionSpec × Option String) :=
  match cs with
  | '-' :: '-' :: _ =>
    let (name, attached) := cutAtEquals cs
    (specs.filter fun spec => name.toList.isPrefixOf spec.name.toList).map (·, attached)
  | _ =>
    specs.filterMap fun spec =>
      if spec.name.toList = cs.take 2 then some (spec, some (String.ofList (cs.drop 2)))
      else if cs.isPrefixOf spec.name.toList then some (spec, none)
      else none

/-- The role of an argument that starts with a dash and is more than that. -/
def classifyDashed (specs : List OptionSpec) (s : String) : Except ArgumentsError Argument :=
  let cs := s.toList
  let exact (name : String) := specs.find? (·.name = name)
  let (name, attached) := cutAtEquals cs
  match exact s, attached.bind fun _ => exact name with
  | some spec, _ => .ok (.option spec none)
  | none, some spec => .ok (.option spec attached)
  | none, none =>
    match matchingOptions specs cs with
    | [(spec, attached)] => .ok (.option spec attached)
    | _ :: _ :: _ => .error .usage
    | [] =>
      if isNegativeNumber cs || cs.contains ' ' then .ok (.positional s) else .ok .unknown

/-- The role of an argument. -/
def classify (specs : List OptionSpec) (s : String) : Except ArgumentsError Argument :=
  match s.toList with
  | '-' :: _ :: _ => classifyDashed specs s
  | _ => .ok (.positional s)

/-- The roles of arguments. After two dashes all are positional. -/
def classifyAll (specs : List OptionSpec) : List String → Except ArgumentsError (List Argument)
  | [] => .ok []
  | s :: rest =>
    if s = "--" then .ok (.separator :: rest.map .positional)
    else do
      let first ← classify specs s
      let others ← classifyAll specs rest
      return first :: others

/-- What the arguments of a command say. -/
structure Arguments where
  /-- The options that were given, the last one first. -/
  options : List (String × OptionValue) := []
  positional : Option String := none
  /-- Whether the place of the positional argument has been passed. -/
  isPositionalTaken : Bool := false
  /-- Whether there were arguments without a role. -/
  hasExtra : Bool := false
  deriving DecidableEq, Repr

namespace Arguments

/-- The value of an option. -/
def value? (a : Arguments) (name : String) : Option OptionValue := a.options.lookup name

/-- Whether a flag was given. -/
def isSet (a : Arguments) (name : String) : Bool := (a.value? name).isSome

/-- The text of an option. -/
def text? (a : Arguments) (name : String) : Option String :=
  match a.value? name with
  | some (.text s) => some s
  | _ => none

/-- The arguments with an option. -/
def give (a : Arguments) (name : String) (value : OptionValue) : Arguments :=
  { a with options := (name, value) :: a.options }

/-- The value that a text gives to an option. -/
def convert (kind : OptionKind) (s : String) : Except ArgumentsError OptionValue :=
  match kind with
  | .integer =>
    match Numeral.readInt 10 s.toList with
    | .ok n => .ok (.integer n)
    | .error _ => .error .usage
  | .choice names => if names.contains s then .ok (.text s) else .error .usage
  | _ => .ok (.text s)

/-- Arguments outside of options, up to the next option: the first is the positional argument, which
two dashes may precede or follow. What is left over is extra. -/
def takePositional (a : Arguments) (before : List Argument) : Arguments :=
  if before.isEmpty then a
  else if a.isPositionalTaken then { a with hasExtra := true }
  else
    let started := before.dropWhile (· = .separator)
    let (positional, rest) := match started with
      | .positional s :: rest => (some s, rest)
      | _ => (none, started)
    let isDone := (rest.drop (rest.takeWhile (· = .separator)).length).isEmpty
    { a with positional, isPositionalTaken := true, hasExtra := a.hasExtra || !isDone }

/-- What an option has at once, before any argument after it: a value, or none if it takes the next
argument. To the short option of help only itself may be attached, once or more. -/
def valueAtOnce (spec : OptionSpec) (attached : Option String) :
    Except ArgumentsError (Option OptionValue) :=
  match spec.kind, attached with
  | .help, none => .error .help
  | .help, some s =>
    if spec.name = "-h" && s != "" && s.toList.all (· = 'h') then .error .help else .error .usage
  | .flag, none => .ok (some .set)
  | .flag, some _ => .error .usage
  | kind, some s => if s = "--" then .ok (some .nothing) else (convert kind s).map some
  | _, none => .ok none

/-- The arguments, which must not hold both the positional argument and its rival. -/
def undisputed (rival : Option String) (a : Arguments) : Except ArgumentsError Arguments :=
  if a.positional.isSome && rival.any a.isSet then .error .usage else .ok a

/-- The arguments from here on. `pending` is the option that takes the next argument, and `before`
are the arguments since the last option, the nearest one first. -/
def collect (rival : Option String) (a : Arguments) :
    (pending : Option OptionSpec) → (before : List Argument) → List Argument →
      Except ArgumentsError Arguments
  | some spec, _, .positional s :: rest => do
    let value ← convert spec.kind s
    collect rival (← undisputed rival (a.give spec.name value)) none [] rest
  | some _, _, _ => .error .usage
  | none, before, [] => undisputed rival (a.takePositional before.reverse)
  | none, before, .unknown :: rest => do
    let a ← undisputed rival (a.takePositional before.reverse)
    collect rival { a with hasExtra := true } none [] rest
  | none, before, .option spec attached :: rest => do
    let a ← undisputed rival (a.takePositional before.reverse)
    match ← valueAtOnce spec attached with
    | some value => collect rival (← undisputed rival (a.give spec.name value)) none [] rest
    | none => collect rival a (some spec) [] rest
  | none, before, other :: rest => collect rival a none (other :: before) rest

/-- The arguments of a command with some options, one of which may be a rival of the positional
argument. None may be without a role. -/
def parse (specs : List OptionSpec) (rival : Option String) (args : List String) :
    Except ArgumentsError Arguments := do
  let a ← collect rival {} none [] (← classifyAll (helpOptions ++ specs) args)
  if a.hasExtra then throw .usage
  return a

end Arguments

end TypedClient.CommandLine

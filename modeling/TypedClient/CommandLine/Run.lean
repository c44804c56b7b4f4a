import TypedClient.Clean
import TypedClient.CommandLine.Arguments
import TypedClient.CommandLine.Help
import TypedClient.Emit.Client
import TypedClient.FileSize
import TypedClient.Loading

/-!
# The command line

`run` carries out a command: it takes the arguments and what the command can reach, and gives what
is printed, how the command ends and the files afterwards. There are three commands, one to generate
a client, one to resolve a single schema, and one to remove what was generated.
-/

namespace TypedClient.CommandLine

/-- How a command ends. -/
inductive Exit where
  | code (n : Nat)
  /-- By a fault that nothing handles. -/
  | fault (f : Fault)
  deriving DecidableEq, Repr

/-- What a command has done. -/
structure Outcome where
  exit : Exit
  out : String := ""
  err : String := ""
  files : FileTree

/-- A command that changes no file. -/
def quiet (around : Surroundings) (exit : Exit) (out err : String) : Outcome :=
  ⟨exit, out, err, around.files⟩

/-- How a command ends whose arguments were not accepted. -/
def rejected (around : Surroundings) : ArgumentsError → Outcome
  | .help => quiet around (.code 0) "" ""
  | .usage => quiet around (.code 2) "" ""

/-- How a command ends that fails before it changes a file. -/
def failed (around : Surroundings) (failure : Failure) : Outcome :=
  match failure with
  | .malformed fault => quiet around (.fault fault) "" ""
  | .schema e => quiet around (.code 1) "" ("error: " ++ e.message ++ "\n")
  | .option e => quiet around (.code 1) "" ("error: " ++ e.message ++ "\n")

/-! ## Generating a client -/

/-- The options of the command that generates. -/
def generateSpecs : List OptionSpec :=
  [⟨"--config", .text⟩, ⟨"--out-dir", .text⟩, ⟨"--language", .choice ["ts", "js"]⟩,
   ⟨"--indent", .text⟩, ⟨"--semicolon", .flag⟩, ⟨"--host", .text⟩, ⟨"--timeout", .integer⟩,
   ⟨"--strict", .flag⟩]

/-- What an option overrides with, the given value standing for nothing. -/
def overrideOf (nothing : Value) : Option OptionValue → Value
  | none => .null
  | some .set => .bool true
  | some (.text s) => .text s
  | some (.integer n) => .scalar (.int n)
  | some .nothing => nothing

/-- The options that arguments override. -/
def overridesOf (nothing : Value) (a : Arguments) : List (String × Value) :=
  let option (name : String) : Value := overrideOf nothing (a.value? name)
  [("src", (a.positional.map Value.text).getD .null), ("out_dir", option "--out-dir"),
   ("language", option "--language"), ("indent", option "--indent"),
   ("semicolon", option "--semicolon"), ("host", option "--host"),
   ("timeout", option "--timeout"), ("strict", option "--strict")]

/-- The options of a run: those of a file, if one is given, with the overrides. An empty sequence
stands for nothing. -/
def optionsOf (files : FileTree) (a : Arguments) : Except Failure (Store × ClientOptions) :=
  let (store, nothing) := ({} : Store).addSequence []
  let overrides := overridesOf nothing a
  match a.text? "--config" with
  | some path => loadOptions files store (Path.ofText path) overrides
  | none => (ClientOptions.ofEntries store [] overrides).map (store, ·)

/-- The client of a run. -/
def clientOf (around : Surroundings) (store : Store) (options : ClientOptions) :
    Except Failure (List GeneratedFile) := do
  let loaded ← loadDocument around store options.src
  let g : Generation := ⟨loaded.store, options⟩
  (g.runClient (.mapping loaded.document) {}).1

/-- The files of a client written below a directory. -/
def writeFiles (outDir : Path) : List GeneratedFile → FileChange Unit
  | [] => pure ()
  | (path, contents) :: rest => do
    let target := outDir.join (Path.ofText path)
    FileChange.ensurePath { target with parts := target.parts.dropLast }
    FileChange.writeFile target contents
    writeFiles outDir rest

/-- The lines that name the files of a client. -/
def generatedLines (outDir : Path) (files : List GeneratedFile) : String :=
  unlines (files.map fun (path, _) => "Generated " ++ (outDir.join (Path.ofText path)).text)

/-- The files of a client written, and reported. -/
def writeClient (around : Surroundings) (outDir : Path) (files : List GeneratedFile) : Outcome :=
  match (writeFiles outDir files).run.run around.files with
  | (.ok (), tree) => ⟨.code 0, generatedLines outDir files, "", tree⟩
  | (.error fault, tree) => ⟨.fault fault, "", "", tree⟩

/-- The command that generates a client. Without a source it ends at once. -/
def generate (around : Surroundings) (args : List String) : Outcome :=
  match Arguments.parse generateSpecs none args with
  | .error e => rejected around e
  | .ok a =>
    match optionsOf around.files a with
    | .error failure => failed around failure
    | .ok (store, options) =>
      if !store.truthy options.src then quiet around (.code 1) "" ""
      else match clientOf around store options with
        | .error failure => failed around failure
        | .ok files => writeClient around options.outDir files

/-! ## Resolving one schema -/

/-- The options of the command that resolves. -/
def resolveSpecs : List OptionSpec :=
  [⟨"--file", .text⟩, ⟨"--types-module", .flag⟩, ⟨"--strict", .flag⟩]

/-- The failure to read a schema. -/
def unreadable (around : Surroundings) (reason : String) : Outcome :=
  quiet around (.code 1) "" ("error: cannot read schema:" ++ reason ++ "\n")

/-- The type of a schema, its name in comments, and the enums. -/
def resolveText (a : Arguments) (store : Store) (schema : Value) : Except Failure String := do
  let mode := if a.isSet "--types-module" then .typesModule else .default
  let config : ResolverConfig := { strict := a.isSet "--strict" }
  let r ← resolve store config mode {} (.value schema)
  let docType ← documentType store config (.value schema)
  return unlines (["type:     " ++ r.text, "doc type: " ++ docType]
    ++ r.registry.declarations.map ("enum:     " ++ ·))

/-- A schema read and resolved. -/
def resolveSource (around : Surroundings) (a : Arguments) (text : String) : Outcome :=
  match Yaml.read {} text with
  | .error .malformed => unreadable around ""
  | .error (.fault fault) => failed around (.malformed fault)
  | .ok (store, schema) =>
    match resolveText a store schema with
    | .error failure => failed around failure
    | .ok out => quiet around (.code 0) out ""

/-- The command that resolves one schema, which is given itself or in a file. Nothing is neither. -/
def resolveCommand (around : Surroundings) (args : List String) : Outcome :=
  match Arguments.parse resolveSpecs (some "--file") args with
  | .error e => rejected around e
  | .ok a =>
    match a.positional, a.value? "--file" with
    | some text, none => resolveSource around a text
    | none, some (.text name) =>
      let path := Path.ofText name
      match readText around.files path with
      | .ok text => resolveSource around a text
      | .error fault =>
        match openErrorText fault path with
        | some reason => unreadable around (" " ++ reason)
        | none => failed around (.malformed fault)
    | none, some .nothing => failed around (.malformed .lacksMember)
    | _, _ => rejected around .usage

/-! ## Cleaning -/

/-- The options of the command that cleans. -/
def cleanSpecs : List OptionSpec := [⟨"--dry-run", .flag⟩]

/-- A place as it is shown, from a path to the directory it lies in. -/
def shownPlace (outDir : Path) (root place : Place) : String :=
  { outDir with parts := outDir.parts ++ place.drop root.length : Path }.text

/-- The lines about generated files. -/
def fileLines (outDir : Path) (root : Place) (verb : String) (files : List (Place × Nat)) :
    List String :=
  files.map fun (place, size) =>
    "  " ++ verb ++ ": " ++ shownPlace outDir root place ++ " - " ++ FileSize.text size

/-- The first line about a directory. -/
def cleaningLine (outDir : Path) : String :=
  "Cleaning generated client in " ++ outDir.text ++ "..."

/-- A directory examined. -/
def dryClean (around : Surroundings) (outDir : Path) (root : Place) : Outcome :=
  let report := Clean.examine around.files root
  let out := unlines ([cleaningLine outDir] ++ fileLines outDir root "Would remove" report.files
    ++ ["", "Would free: " ++ FileSize.text report.total, "",
      "Run without --dry-run to actually clean."])
  ⟨.code 0, out, "", report.tree⟩

/-- The directories that can still be examined when the path to the directory that is cleaned leads
through some of them: those up to the first removal after which it leads nowhere. -/
def reachableDirectories (t : FileTree) (outDir : Path) (places : List Place) : List Place :=
  let isCut (n : Nat) : Bool := !(Clean.removeEmpty (places.take n) t).1.isDirectory outDir
  match (List.range (places.length + 1)).find? isCut with
  | some n => places.take n
  | none => places

/-- A directory cleaned. -/
def wetClean (around : Surroundings) (outDir : Path) (root : Place) : Outcome :=
  let report := Clean.sweep around.files root
  let heading := [cleaningLine outDir] ++ fileLines outDir root "Removing" report.files
  let cleared := Clean.removeFiles (report.files.map (·.1)) around.files
  let places := Clean.directories cleared root
  let reached := reachableDirectories cleared outDir places
  if reached.length < places.length then
    ⟨.fault .fileMissing, unlines heading, "", (Clean.removeEmpty reached cleared).1⟩
  else
    let directories := report.removed.map fun place =>
      "  Removed empty directory: " ++ shownPlace outDir root place
    ⟨.code 0, unlines (heading ++ directories ++ ["", "Freed: " ++ FileSize.text report.total]), "",
      report.tree⟩

/-- The command that cleans a directory. -/
def cleanCommand (around : Surroundings) (args : List String) : Outcome :=
  match Arguments.parse cleanSpecs none args with
  | .error e => rejected around e
  | .ok a =>
    let outDir := Path.ofText (a.positional.getD "generated")
    match around.files.locate outDir, around.files.isDirectory outDir with
    | .error .nameTooLong, _ => quiet around (.fault .nameTooLong) "" ""
    | .ok root, true =>
      if a.isSet "--dry-run" then dryClean around outDir root else wetClean around outDir root
    | _, _ =>
      quiet around (.code 0) ("Nothing to clean: " ++ outDir.text ++ " does not exist\n") ""

/-! ## Commands -/

/-- The names of the commands. -/
def commandNames : List String := ["generate", "resolve", "clean"]

/-- A command carried out. -/
def run (around : Surroundings) : List String → Outcome
  | [] => quiet around (.code 0) overview ""
  | command :: args =>
    if command = "-h" || command = "--help" then quiet around (.code 0) overview ""
    else if command = "generate" then generate around args
    else if command = "resolve" then resolveCommand around args
    else if command = "clean" then cleanCommand around args
    else
      let names := ", ".intercalate commandNames
      quiet around (.code 1)
        ("Unknown command: " ++ command ++ "\nAvailable commands: " ++ names ++ "\n") ""

end TypedClient.CommandLine

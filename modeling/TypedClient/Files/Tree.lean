import TypedClient.Fault
import TypedClient.Files.Path

/-!
# File trees

Files and directories. Each is kept under its place, which is the list of names on the way to it
from the root, and they are listed in the order in which the file system lists what a directory
holds, which is up to it. The root is the empty list and always there. Relative paths start from the
directory that the process is in; it and those around it are directories like any other. A path is
first located, following its parts one by one, and then looked up.
-/

namespace TypedClient

/-- Where something is: the names on the way to it. -/
abbrev Place := List String

/-- What may be at a place. -/
inductive FileEntry where
  | file (bytes : ByteArray)
  | directory

/-- Whether something is a directory. -/
def FileEntry.isDirectory : FileEntry → Bool
  | file _ => false
  | directory => true

/-- Files and directories by place. -/
structure FileTree where
  /-- The place of the directory that relative paths start from. -/
  home : Place := []
  entries : List (Place × FileEntry) := []

namespace FileTree

/-- What is at a place. -/
def at? (t : FileTree) (place : Place) : Option FileEntry :=
  if place = [] then some .directory else t.entries.lookup place

/-- Whether a directory is at a place. -/
def isDirectoryAt (t : FileTree) (place : Place) : Bool := (t.at? place).any (·.isDirectory)

/-- The tree with something at a place. -/
def put (t : FileTree) (place : Place) (entry : FileEntry) : FileTree :=
  { t with entries := t.entries.filter (·.1 != place) ++ [(place, entry)] }

/-- The tree without what is at a place. -/
def erase (t : FileTree) (place : Place) : FileTree :=
  { t with entries := t.entries.filter (·.1 != place) }

/-- Whether a place lies below another one. -/
def isBelow (outer inner : Place) : Bool :=
  inner.take outer.length = outer && outer.length < inner.length

/-- What lies below a place. -/
def below (t : FileTree) (place : Place) : List (Place × FileEntry) :=
  t.entries.filter fun (inner, _) => isBelow place inner

/-- Whether nothing lies below a place. -/
def isEmptyAt (t : FileTree) (place : Place) : Bool := (t.below place).isEmpty

/-- One place before another: the names compared in turn, a place before those below it. -/
def placeBefore : Place → Place → Bool
  | [], _ => true
  | _ :: _, [] => false
  | a :: rest, b :: others => if a = b then placeBefore rest others else Text.before a b

/-- What lies below a place, in order. -/
def listing (t : FileTree) (place : Place) : List (Place × FileEntry) :=
  (t.below place).mergeSort fun a b => placeBefore a.1 b.1

/-- The greatest number of bytes of a name. -/
def maxNameSize : Nat := 255

/-- The greatest number of bytes of a path. -/
def maxPathSize : Nat := 4095

/-- The place one part further. Above the root there is nothing but the root. -/
def next (place : Place) (part : String) : Place :=
  if part = ".." then place.dropLast else place ++ [Path.nameOnDisk part]

/-- The place that parts lead to from a place. Each part but the last has to lead to a directory. -/
def follow (t : FileTree) : Place → List String → Except Fault Place
  | place, [] => .ok place
  | place, part :: rest =>
    match t.at? place with
    | none => .error .fileMissing
    | some (.file _) => .error .notADirectory
    | some .directory =>
      if Path.byteSize part > maxNameSize then .error .nameTooLong
      else follow t (next place part) rest

/-- The place that a path starts from: the root, or where its leading double dots climb to from the
directory that the process is in. That works even if this directory has been removed. -/
def start (home : Place) (p : Path) : Place :=
  if p.root = "" then (p.parts.takeWhile (· = "..")).foldl next home else []

/-- The parts of a path from the place on that it starts from. -/
def onward (p : Path) : List String :=
  if p.root = "" then p.parts.dropWhile (· = "..") else p.parts

/-- The place that a path leads to. -/
def locate (t : FileTree) (p : Path) : Except Fault Place :=
  match p.fault? with
  | some fault => .error fault
  | none =>
    if Path.byteSize p.text > maxPathSize then .error .nameTooLong
    else t.follow (start t.home p) (onward p)

/-- What a path leads to, if it leads to something. -/
def find? (t : FileTree) (p : Path) : Option FileEntry :=
  match t.locate p with
  | .ok place => t.at? place
  | .error _ => none

/-- Whether a path leads to a directory. -/
def isDirectory (t : FileTree) (p : Path) : Bool := (t.find? p).any (·.isDirectory)

/-- The bytes of the file that a path leads to. -/
def read (t : FileTree) (p : Path) : Except Fault ByteArray := do
  match t.at? (← t.locate p) with
  | some (.file bytes) => return bytes
  | some .directory => throw .isADirectory
  | none => throw .fileMissing

end FileTree

/-- Changes to a file tree, which may stop half way. -/
abbrev FileChange := ExceptT Fault (StateM FileTree)

namespace FileChange

/-- A result that has been computed. -/
def ofResult {α : Type} (result : Except Fault α) : FileChange α := ExceptT.mk (pure result)

/-- A directory made, where nothing may be yet. -/
def makeDirectory (p : Path) : FileChange Unit := do
  let t ← get
  let place ← ofResult (t.locate p)
  if (t.at? place).isSome then throw .fileInTheWay
  set (t.put place .directory)

/-- Whether a fault is one of the name of a path, and not of what is found there. -/
def isOfName (fault : Fault) : Bool := fault = .embeddedNull || fault = .unencodable

/-- A directory made unless it is there. -/
def ensureDirectory (p : Path) : FileChange Unit :=
  tryCatch (makeDirectory p) fun fault => do
    if fault = .fileMissing || isOfName fault || !(← get).isDirectory p then throw fault

/-- A directory made unless it is there, with the directories on the way to it. -/
def ensureDirectories (root : String) (ancestors : List String) (name : String) :
    FileChange Unit := go ancestors.reverse name
where
  /-- The directory of this name within those whose names are listed from the inside out. -/
  go : List String → String → FileChange Unit
    | outer, name => do
      let p : Path := ⟨root, outer.reverse ++ [name]⟩
      tryCatch (ensureDirectory p) fun fault => do
        if fault != .fileMissing then throw fault
        match outer with
        | [] => throw fault
        | parent :: rest =>
          go rest parent
          ensureDirectory p

/-- The directory of a path made unless it is there, with the directories on the way to it. -/
def ensurePath (p : Path) : FileChange Unit :=
  match p.parts.getLast? with
  | none => ensureDirectory p
  | some name => ensureDirectories p.root p.parts.dropLast name

/-- The bytes that a file is left with if a text is written to it: none if the text has none. -/
def bytesLeft (contents : String) : ByteArray := (Text.utf8Of contents).getD .empty

/-- A text written to a file, in place of the one that is there. The file is emptied first. -/
def writeFile (p : Path) (contents : String) : FileChange Unit := do
  let t ← get
  let place ← ofResult (t.locate p)
  if t.isDirectoryAt place then throw .isADirectory
  set (t.put place (.file (bytesLeft contents)))
  if (Text.utf8Of contents).isNone then throw .unencodable

end FileChange

end TypedClient

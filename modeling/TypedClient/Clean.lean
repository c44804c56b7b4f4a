import TypedClient.Emit.Generation
import TypedClient.Files.Lines
import TypedClient.Files.Tree

/-!
# Cleaning

Generated files are recognized by their extension and by the marker among their first lines.
Cleaning removes them, and then every directory that holds no file any more. What is to be removed
is decided before anything is.
-/

namespace TypedClient.Clean

/-- The number of lines among which the marker has to be. -/
def markerLines : Nat := 3

/-- The extensions of generated files. -/
def generatedSuffixes : List String := [".ts", ".js"]

/-- The number of bytes that are decoded at a time. -/
def blockSize : Nat := 8192

/-- The lines of a text. -/
def linesOf (cs : List Char) : List (List Char) := Text.piecesAt '\n' cs

/-- Whether one of the first lines is the marker. -/
def showsMarker (lines : List (List Char)) : Bool :=
  (lines.take markerLines).any fun line => Text.trimBlanks line == generatedMarker.toList

/-- Whether a byte may be the second one of a character, by its first one. The halves of surrogate
pairs, which are no characters, are not told apart before their third byte. -/
def isSecond (first second : Nat) : Bool :=
  let least := if first = 0xe0 then 0xa0 else if first = 0xf0 then 0x90 else 0x80
  let greatest := if first = 0xf4 then 0x8f else 0xbf
  least ≤ second && second ≤ greatest

/-- Whether bytes are the beginning of a character, without its last byte. -/
def beginsCharacter (bytes : ByteArray) : Bool :=
  match bytes.toList.map UInt8.toNat with
  | [] => true
  | [a] => 0xc2 ≤ a && a ≤ 0xf4
  | [a, b] => 0xe0 ≤ a && a ≤ 0xf4 && isSecond a b
  | [a, b, c] => 0xf0 ≤ a && a ≤ 0xf4 && isSecond a b && 0x80 ≤ c && c ≤ 0xbf
  | _ => false

/-- The text of the first bytes, a character that is only begun at their end not counting. -/
def textBegun (bytes : ByteArray) (size : Nat) : Option String :=
  [0, 1, 2, 3].findSome? fun cut =>
    if beginsCharacter (bytes.extract (size - cut) size) then
      String.fromUTF8? (bytes.extract 0 (size - cut))
    else none

/-- The text of the blocks before the first one that is not text, of so many blocks. The last block
may be shorter. -/
def textOfBlocks (bytes : ByteArray) : (blocks : Nat) → String
  | 0 => ""
  | n + 1 =>
    (textBegun bytes (min ((n + 1) * blockSize) bytes.size)).getD (textOfBlocks bytes n)

/-- The lines that are read before bytes turn out not to be text: those that end within the blocks
before the first one that is not. A carriage return at the very end waits for what follows. -/
def linesBeforeFault (bytes : ByteArray) : List (List Char) :=
  let cs := (textOfBlocks bytes (bytes.size / blockSize + 1)).toList
  let settled := if cs.getLast? = some '\r' then cs.dropLast else cs
  (linesOf (normalizeBreaks settled)).dropLast

/-- Whether bytes are a generated file. -/
def hasMarker (bytes : ByteArray) : Bool :=
  match textOfBytes bytes with
  | some text => showsMarker (linesOf text.toList)
  | none => showsMarker (linesBeforeFault bytes)

/-- Whether a file is generated, by its name and its contents. -/
def isGenerated (place : Place) (entry : FileEntry) : Bool :=
  match entry with
  | .file bytes =>
    generatedSuffixes.contains (Path.suffixOf (place.getLastD "")) && hasMarker bytes
  | .directory => false

/-- The generated files below a place, in order, with their sizes. -/
def generatedFiles (t : FileTree) (root : Place) : List (Place × Nat) :=
  (t.listing root).filterMap fun (place, entry) =>
    match entry with
    | .file bytes => if isGenerated place entry then some (place, bytes.size) else none
    | .directory => none

/-- A tree without the files at some places. -/
def removeFiles (places : List Place) (t : FileTree) : FileTree := places.foldl FileTree.erase t

/-- The directories below a place, the deepest ones first. Those that are equally deep come as the
file system lists them. -/
def directories (t : FileTree) (root : Place) : List Place :=
  (((t.below root).filter (·.2.isDirectory)).map (·.1)).mergeSort fun a b => b.length ≤ a.length

/-- A tree without those of some directories that are empty when it is their turn, and which these
are. -/
def removeEmpty : List Place → FileTree → FileTree × List Place
  | [], t => (t, [])
  | place :: rest, t =>
    if t.isEmptyAt place then
      let (t, removed) := removeEmpty rest (t.erase place)
      (t, place :: removed)
    else removeEmpty rest t

/-- What cleaning a directory does. -/
structure Report where
  /-- The generated files with their sizes. -/
  files : List (Place × Nat)
  /-- The directories that were removed. -/
  removed : List Place
  tree : FileTree

/-- The number of bytes of the generated files. -/
def Report.total (r : Report) : Nat := r.files.foldr (fun file total => file.2 + total) 0

/-- A directory examined, nothing being removed. -/
def examine (t : FileTree) (root : Place) : Report := ⟨generatedFiles t root, [], t⟩

/-- A directory cleaned. -/
def sweep (t : FileTree) (root : Place) : Report :=
  let files := generatedFiles t root
  let t := removeFiles (files.map (·.1)) t
  let (t, removed) := removeEmpty (directories t root) t
  ⟨files, removed, t⟩

end TypedClient.Clean

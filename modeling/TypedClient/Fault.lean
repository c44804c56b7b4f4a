/-!
# Malformed documents

What can go wrong with a document whose shape is not the one that an operation relies on. These are
no errors of the generator's own: nothing is said about them but their kind.
-/

namespace TypedClient

/-- Why an operation could not be carried out on the values it met. -/
inductive Fault where
  /-- A value lacks the members of a mapping or of a text. -/
  | lacksMember
  /-- A mapping lacks an entry that is taken for granted. -/
  | missingEntry
  /-- A position lies beyond the end of a sequence. -/
  | missingItem
  /-- A value has no elements to go through. -/
  | notIterable
  /-- A collection stands where only a key can. -/
  | unhashable
  /-- A value cannot be indexed. -/
  | notIndexable
  /-- A value has no JSON text. -/
  | unserializable
  /-- A value is not the text of a path. -/
  | notAPath
  /-- A setting is given that does not exist. -/
  | unknownSetting
  /-- Two values have no order. -/
  | notComparable
  /-- A value contains itself and so has no JSON text. -/
  | circular
  /-- A numeral does not follow its grammar. -/
  | badNumeral
  /-- A numeral has more digits than are accepted. -/
  | tooManyDigits
  /-- The calendar has no such day. -/
  | badDate
  /-- A character code lies beyond the last character. -/
  | badCharacter
  /-- A collection, or bytes, stand where a text is read. -/
  | notText
  /-- A text is nested more deeply than is accepted. -/
  | tooDeep
  /-- The name of a file, or a path, is longer than file systems accept. -/
  | nameTooLong
  /-- A path contains the null character. -/
  | embeddedNull
  /-- A numeral is empty. -/
  | emptyNumeral
  /-- Bytes are not the UTF-8 form of a text. -/
  | undecodable
  /-- A text has no UTF-8 form. -/
  | unencodable
  /-- A number exceeds the range of the arithmetic. -/
  | tooLarge
  /-- A file or directory does not exist. -/
  | fileMissing
  /-- A file stands where a directory is to be made. -/
  | fileInTheWay
  /-- A file stands where a path needs a directory. -/
  | notADirectory
  /-- A directory stands where a file is to be opened. -/
  | isADirectory
  deriving DecidableEq, Repr

end TypedClient

/-!
# Lines of bytes

Text files are UTF-8. A line ends with a line feed, a carriage return, or the two together, which
all count as a line feed.
-/

namespace TypedClient

/-- Text with every line ended by a line feed alone. -/
def normalizeBreaks : List Char → List Char
  | '\r' :: '\n' :: rest => '\n' :: normalizeBreaks rest
  | '\r' :: rest => '\n' :: normalizeBreaks rest
  | c :: rest => c :: normalizeBreaks rest
  | [] => []

/-- The text of a file, if its bytes are one. -/
def textOfBytes (bytes : ByteArray) : Option String :=
  (String.fromUTF8? bytes).map fun s => String.ofList (normalizeBreaks s.toList)

end TypedClient

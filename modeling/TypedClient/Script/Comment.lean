/-!
# Comments as scripts read them

A comment starts with a slash and a star and goes on to the first star after these that a slash
follows. Nothing within it has a meaning: there is no way to write a star and a slash in a comment,
and comments are not nested.
-/

namespace TypedClient.Script

/-- The two characters that end a comment. -/
def commentEnd : List Char := ['*', '/']

/-- The characters up to the end of a comment, and those after it. -/
def upToEnd : List Char → Option (List Char × List Char)
  | [] => none
  | c :: rest =>
    if c = '*' && rest.head? = some '/' then some (commentEnd, rest.tail)
    else (upToEnd rest).map fun (inner, after) => (c :: inner, after)

/-- The comment at the start of characters, and the characters after it. -/
def comment? : List Char → Option (List Char × List Char)
  | '/' :: '*' :: rest => (upToEnd rest).map fun (inner, after) => ('/' :: '*' :: inner, after)
  | _ => none

end TypedClient.Script

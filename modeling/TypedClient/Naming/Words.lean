import TypedClient.Text.Edit
import TypedClient.Text.LetterCase

/-!
# Names made of words

A text is cut into words of ASCII letters and digits. Everything else separates words, and so does a
change of case, by one of two rules: `slugCut` separates `petID` and `HTTPServer` into two words
each, `pascalCut` only the former. Slugs, camel case and Pascal case are three ways to put words
together again.
-/

namespace TypedClient.Naming

/-- A rule that separates two adjacent characters, the one after them being known too. -/
abbrev CutRule := Char → Char → Option Char → Bool

/-- The words of a text, an empty one between two separators: the first is what the text starts
with. -/
def pieces (cut : CutRule) : List Char → List (List Char)
  | [] => [[]]
  | c :: rest =>
    if !c.isAlphanum then [] :: pieces cut rest
    else
      let isCut := match rest with
        | [] => false
        | d :: more => cut c d more.head?
      match pieces cut rest with
      | [] => [[c]]
      | word :: words => if isCut then [c] :: word :: words else (c :: word) :: words

/-- The words of a text. -/
def words (cut : CutRule) (cs : List Char) : List (List Char) :=
  (pieces cut cs).filter fun word => !word.isEmpty

/-- A capital starts a word after a small letter or digit, and after a capital if a small letter
follows. -/
def slugCut : CutRule := fun c d next =>
  d.isUpper && (c.isLower || c.isDigit || c.isUpper && next.any Char.isLower)

/-- A capital starts a word after a small letter. -/
def pascalCut : CutRule := fun c d _ => c.isLower && d.isUpper

/-- The words of a text in small letters with underscores between them, or a fallback if there are
none. -/
def slug (s : String) (fallback : String) : String :=
  match words slugCut s.toList with
  | [] => fallback
  | found => String.ofList (['_'].intercalate (found.map (·.map Char.toLower)))

/-- The slug of an operation. -/
def operationSlug (s : String) : String := slug s "operation"

/-- The pieces between underscores put together, each but the first with a capital. -/
def camelCase (s : String) : String :=
  match Text.splitAt '_' s with
  | [] => s
  | first :: others => first ++ String.join (others.map Text.capitalized)

/-- A word of ASCII letters and digits with a capital. -/
def capitalizedWord : List Char → List Char
  | [] => []
  | c :: rest => c.toUpper :: rest.map Char.toLower

/-- The words of a text put together, each with a capital. -/
def pascalCase (s : String) : String :=
  String.ofList ((words pascalCut s.toList).map capitalizedWord).flatten

/-- The part of a reference after its last slash, slashes at its end not counting. -/
def referenceName (reference : String) : String :=
  let cs := (reference.toList.reverse.dropWhile (· = '/'))
  String.ofList (cs.takeWhile (· != '/')).reverse

end TypedClient.Naming

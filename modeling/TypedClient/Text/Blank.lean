import TypedClient.Text.Ranges

/-!
# Blank characters

The white space of Unicode 14, to which the four information separators below the space belong.
The zero width space and the byte order mark do not.
-/

namespace TypedClient.Text

/-- The blank characters. -/
def blankRanges : CharRanges :=
  [(0x9, 0xd), (0x1c, 0x20), (0x85, 0x85), (0xa0, 0xa0), (0x1680, 0x1680), (0x2000, 0x200a),
   (0x2028, 0x2029), (0x202f, 0x202f), (0x205f, 0x205f), (0x3000, 0x3000)]

/-- Whether a character is blank. -/
def isBlank (c : Char) : Bool := blankRanges.holds c

/-- Text without the blanks at either end, as characters. -/
def trimBlanks (cs : List Char) : List Char :=
  ((cs.dropWhile isBlank).reverse.dropWhile isBlank).reverse

/-- Text without the blanks at either end. -/
def trimmed (s : String) : String := String.ofList (trimBlanks s.toList)

end TypedClient.Text

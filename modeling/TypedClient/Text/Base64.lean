/-!
# Base64

A digit of base64 stands for six bits, and a group of four digits for three bytes. The reading is
lenient: what is no digit is passed over, and so is an equals sign where no padding can stand, before
the third place of a group. Padding that completes a group ends the text. Without it the last group
has to be complete.
-/

namespace TypedClient.Text

/-- The value of a digit. -/
def sextet? (c : Char) : Option Nat :=
  if c.isUpper then some (c.toNat - 'A'.toNat)
  else if c.isLower then some (c.toNat - 'a'.toNat + 26)
  else if c.isDigit then some (c.toNat - '0'.toNat + 52)
  else if c = '+' then some 62
  else if c = '/' then some 63
  else none

/-- The bytes that are complete in a group. -/
def bytesOfSextets : List Nat → List UInt8
  | a :: b :: more => UInt8.ofNat (4 * a + b / 16) :: match more with
    | c :: last => UInt8.ofNat (16 * b + c / 4) :: last.map fun d => UInt8.ofNat (64 * c + d)
    | [] => []
  | _ => []

/-- The bytes of a text in base64, within a group of which there are some digits, and some padding
after them. -/
def base64From : (group : List Nat) → (padding : Nat) → List Char → Option (List UInt8)
  | group, _, [] => if group.isEmpty then some [] else none
  | group, padding, c :: rest =>
    if c = '=' then
      if group.length < 2 then base64From group padding rest
      else if group.length + padding < 3 then base64From group (padding + 1) rest
      else some (bytesOfSextets group)
    else match sextet? c with
      | none => base64From group padding rest
      | some d =>
        if group.length < 3 then base64From (group ++ [d]) 0 rest
        else (base64From [] 0 rest).map (bytesOfSextets (group ++ [d]) ++ ·)

/-- The bytes of a text in base64. -/
def base64? (cs : List Char) : Option (List UInt8) := base64From [] 0 cs

end TypedClient.Text

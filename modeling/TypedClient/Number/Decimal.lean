import TypedClient.Number.Binary64

/-!
# Numbers as decimal text

Two texts of a floating-point number occur in the output. The *shortest* text has the fewest
digits that read back to the same number: `Decimal.shortest` tries one digit, then two, and so on,
each time the two neighbours of the number on that decimal grid, and tests them against the
interval of reals that round to the number. The *fixed* text has one place after the point and is
used for file sizes.

Where the digits go is a separate matter: the point is written positionally as long as the leading
digit stands between the fourth place after the point and the sixteenth before it, and a mantissa
with a signed exponent of at least two digits is written otherwise.
-/

namespace TypedClient

/-- The decimal number `digits * 10 ^ exponent`. -/
structure Decimal where
  digits : Nat
  exponent : Int
  deriving DecidableEq, Repr

namespace Decimal

/-- Compares `digits * 10 ^ exponent` with `n * 2 ^ q`, exactly. -/
def compareBinary (d : Decimal) (n : Nat) (q : Int) : Ordering :=
  compare (d.digits * tenTo d.exponent.toNat * twoTo (-q).toNat)
    (n * twoTo q.toNat * tenTo (-d.exponent).toNat)

/-- Whether the decimal lies among the reals that round to `m * 2 ^ q`. The interval reaches half
way to the neighbour on each side, a quarter of a unit below a power of two, and contains its ends
exactly when the mantissa is even. -/
def readsBack (m : Nat) (q : Int) (d : Decimal) : Bool :=
  let narrow := m == twoTo 52 && q > Binary64.leastExponent
  let lower := d.compareBinary (4 * m - if narrow then 1 else 2) (q - 2)
  let upper := d.compareBinary (4 * m + 2) (q - 2)
  let closed := m % 2 == 0
  (lower == .gt || closed && lower == .eq) && (upper == .lt || closed && upper == .eq)

/-- The least `k` with `m * 2 ^ q < 10 ^ k`, for a positive `m`: the power of two below the number
gives it up to one step. -/
def scaleOf (m : Nat) (q : Int) : Int :=
  let guess := Int.fdiv (((m.log2 : Int) + q) * 30103) 100000
  let isAbove (k : Int) : Bool := (⟨1, k⟩ : Decimal).compareBinary m q == .gt
  if isAbove guess then guess else if isAbove (guess + 1) then guess + 1 else guess + 2

/-- The neighbour of `m * 2 ^ q` on the grid `10 ^ k` that reads back, the nearer one if both do
and the even one if they are equally near. -/
def onGrid (m : Nat) (q k : Int) : Option Decimal :=
  let floor := (m * twoTo q.toNat * tenTo (-k).toNat) / (twoTo (-q).toNat * tenTo k.toNat)
  let low : Decimal := ⟨floor, k⟩
  let high : Decimal := ⟨floor + 1, k⟩
  let middle : Decimal := ⟨2 * floor + 1, k⟩
  match readsBack m q low, readsBack m q high with
  | true, true =>
    match middle.compareBinary (2 * m) q with
    | .lt => some high
    | .gt => some low
    | .eq => some (if floor % 2 = 0 then low else high)
  | true, false => some low
  | false, true => some high
  | false, false => none

/-- A decimal without zeros at the end of its digits. -/
def trim (d : Decimal) : Nat → Decimal
  | 0 => d
  | n + 1 => if d.digits % 10 = 0 then trim ⟨d.digits / 10, d.exponent + 1⟩ n else d

/-- The decimal with the fewest digits that reads back to `m * 2 ^ q`, for a positive `m`. Seventeen
digits always suffice; should none do, the exact value is returned. -/
def shortest (m : Nat) (q : Int) : Decimal :=
  let k := scaleOf m q
  match (List.range 17).findSome? fun (n : Nat) => onGrid m q (k - (n + 1 : Nat)) with
  | some d => trim d 17
  | none => ⟨m * twoTo q.toNat * Nat.pow 5 (-q).toNat, -((-q).toNat : Int)⟩

/-- The digits of a natural number. -/
def digitString (n : Nat) : String := String.ofList (Nat.toDigits 10 n)

/-- The digits of an integer, with its sign if it is negative. -/
def signedString (n : Int) : String := (if n < 0 then "-" else "") ++ digitString n.natAbs

/-- A run of zeros. -/
def zeros (n : Nat) : String := String.ofList (List.replicate n '0')

/-- The layout of a positive decimal without trailing zeros: positional while the leading digit has
an exponent from -4 to 15, with a point and at least one digit after it, and scientific with a
signed exponent of two digits or more otherwise. -/
def layout (d : Decimal) : String :=
  let ds := Nat.toDigits 10 d.digits
  let point : Int := ds.length + d.exponent
  if -4 < point && point ≤ 16 then
    if point ≤ 0 then "0." ++ zeros (-point).toNat ++ String.ofList ds
    else if ds.length ≤ point.toNat then
      String.ofList ds ++ zeros (point.toNat - ds.length) ++ ".0"
    else String.ofList (ds.take point.toNat) ++ "." ++ String.ofList (ds.drop point.toNat)
  else
    let e := point - 1
    let size := digitString e.natAbs
    let fraction := if ds.length ≤ 1 then "" else "." ++ String.ofList (ds.drop 1)
    String.ofList (ds.take 1) ++ fraction ++ "e" ++ (if e < 0 then "-" else "+")
      ++ (if size.length < 2 then "0" ++ size else size)

end Decimal

namespace Binary64

/-- The shortest text of a finite number, with its sign. -/
def finiteText (negative : Bool) (m : Nat) (e : Int) : String :=
  (if negative then "-" else "") ++ if m = 0 then "0.0" else (Decimal.shortest m e).layout

/-- A number as messages show it. -/
def text : Binary64 → String
  | .finite s m e => finiteText s m e
  | .infinite s => if s then "-inf" else "inf"
  | .nan => "nan"

/-- A number as JSON text shows it, with names for the values that JSON itself lacks. -/
def jsonText : Binary64 → String
  | .finite s m e => finiteText s m e
  | .infinite s => if s then "-Infinity" else "Infinity"
  | .nan => "NaN"

/-- A number with one place after the point: the exact value rounded to a tenth, a tie going to the
even tenth. -/
def fixedText : Binary64 → String
  | .finite s m e =>
    let tenths := roundQuotient (numerator m e * 10) (denominator e)
    (if s then "-" else "") ++ Decimal.digitString (tenths / 10) ++ "."
      ++ Decimal.digitString (tenths % 10)
  | x => x.text

end Binary64

end TypedClient

/-!
# Binary floating-point numbers, exactly

Documents hold numbers with a fractional part as 64-bit binary floating point. Such a number is
kept here as what it denotes, a sign, a natural mantissa and a power of two, so every operation
below is arithmetic on naturals and integers, and nothing about it has to be taken on trust.

There is one rounding function, `Binary64.ofRatio`: it sends a quotient of naturals to the nearest
representable number, a tie going to the even mantissa. Reading a decimal numeral, adding,
multiplying and dividing are all "compute exactly, then round once".
-/

namespace TypedClient

/-- A 64-bit binary floating-point number. A finite one denotes `mantissa * 2 ^ exponent`; the
numbers that `ofRatio` builds have a mantissa below `2 ^ 53` and, unless the exponent is the least
one, of exactly 53 bits, so each value has one representation. -/
inductive Binary64 where
  | finite (negative : Bool) (mantissa : Nat) (exponent : Int)
  | infinite (negative : Bool)
  | nan
  deriving DecidableEq, Repr, Inhabited

/-- A power of two. -/
def twoTo (k : Nat) : Nat := Nat.pow 2 k

/-- A power of ten. -/
def tenTo (k : Nat) : Nat := Nat.pow 10 k

/-- The quotient of two naturals rounded to the nearest natural, a tie going to the even one. -/
def roundQuotient (num den : Nat) : Nat :=
  let q := num / den
  match compare (2 * (num % den)) den with
  | .lt => q
  | .gt => q + 1
  | .eq => if q % 2 = 0 then q else q + 1

namespace Binary64

/-- The exponent of the smallest positive number. -/
def leastExponent : Int := -1074

/-- The exponent of the largest numbers. -/
def greatestExponent : Int := 971

/-- Zero, with its sign. -/
def zero (negative : Bool) : Binary64 := .finite negative 0 leastExponent

/-- The exponent at which a quotient has a mantissa of 53 bits, or the least exponent when the
quotient is too small for that. -/
def exponentOfRatio (num den : Nat) : Int :=
  let guess : Int := (num.log2 : Int) - (den.log2 : Int) - 52
  let fits := den * twoTo guess.toNat * twoTo 52 ≤ num * twoTo (-guess).toNat
  max leastExponent (if fits then guess else guess - 1)

/-- The number nearest to `num / den`, a tie going to the even mantissa; beyond the largest number
it is infinite. -/
def ofRatio (negative : Bool) (num den : Nat) : Binary64 :=
  if num = 0 then zero negative
  else
    let e := exponentOfRatio num den
    let m := roundQuotient (num * twoTo (-e).toNat) (den * twoTo e.toNat)
    let (m, e) := if m = twoTo 53 then (twoTo 52, e + 1) else (m, e)
    if e > greatestExponent then .infinite negative else .finite negative m e

/-- The number nearest to an integer. -/
def ofInt (n : Int) : Binary64 := ofRatio (n < 0) n.natAbs 1

/-- The number nearest to `digits * 10 ^ exponent`. Numerals whose leading digit stands far outside
the range of the format are settled before any power of ten is formed. -/
def ofDecimal (negative : Bool) (digits : Nat) (exponent : Int) : Binary64 :=
  let leading : Int := (Nat.toDigits 10 digits).length + exponent
  if digits = 0 then zero negative
  else if leading > 310 then .infinite negative
  else if leading < -330 then zero negative
  else ofRatio negative (digits * tenTo exponent.toNat) (tenTo (-exponent).toNat)

/-- The numerator of a finite magnitude `mantissa * 2 ^ exponent`. -/
def numerator (mantissa : Nat) (exponent : Int) : Nat := mantissa * twoTo exponent.toNat

/-- The denominator of a finite magnitude `mantissa * 2 ^ exponent`. -/
def denominator (exponent : Int) : Nat := twoTo (-exponent).toNat

/-- Whether the number is zero, of either sign. -/
def isZero : Binary64 → Bool
  | .finite _ m _ => m == 0
  | _ => false

/-- Whether the number has a minus sign. -/
def isNegative : Binary64 → Bool
  | .finite s _ _ => s
  | .infinite s => s
  | .nan => false

/-- The sign changed. -/
def negate : Binary64 → Binary64
  | .finite s m e => .finite (!s) m e
  | .infinite s => .infinite (!s)
  | .nan => .nan

/-- The exact sum, rounded once. A zero sum is negative only when both parts are. -/
def add : Binary64 → Binary64 → Binary64
  | .finite s m e, .finite t n f =>
    let a : Int := numerator m e * denominator f
    let b : Int := numerator n f * denominator e
    let sum := (if s then -a else a) + (if t then -b else b)
    ofRatio (if sum = 0 then s && t else sum < 0) sum.natAbs (denominator e * denominator f)
  | .nan, _ => .nan
  | _, .nan => .nan
  | .infinite s, .infinite t => if s = t then .infinite s else .nan
  | .infinite s, _ => .infinite s
  | _, .infinite t => .infinite t

/-- The exact product, rounded once. -/
def multiply : Binary64 → Binary64 → Binary64
  | .finite s m e, .finite t n f =>
    ofRatio (s != t) (numerator m e * numerator n f) (denominator e * denominator f)
  | .nan, _ => .nan
  | _, .nan => .nan
  | x, y => if x.isZero || y.isZero then .nan else .infinite (x.isNegative != y.isNegative)

/-- The quotient by a positive natural, rounded once. -/
def divide (x : Binary64) (n : Nat) : Binary64 :=
  match x with
  | .finite s m e => ofRatio s (numerator m e) (denominator e * n)
  | y => y

/-- Whether the number lies below a natural one. Nothing holds of what is not a number. -/
def below (x : Binary64) (n : Nat) : Bool :=
  match x with
  | .finite s m e => s && m != 0 || decide (numerator m e < n * denominator e)
  | .infinite s => s
  | .nan => false

/-- The integer that the number is, if it is one. -/
def toInt? : Binary64 → Option Int
  | .finite s m e =>
    if numerator m e % denominator e = 0 then
      let n : Int := numerator m e / denominator e
      some (if s then -n else n)
    else none
  | _ => none

end Binary64

end TypedClient

/-!
The shortest decimal numeral of a binary floating-point number.

A number is `mantissa * 2 ^ exponent`.  The decimal numbers that round to it form an interval, which holds
its ends when the mantissa is even.  Of all decimal numbers in the interval those with the fewest digits are
taken, of these the nearest, and of two equally near ones the larger.  Numerals are positional.
-/

set_option autoImplicit false
set_option relaxedAutoImplicit false

namespace ShaderPipeline.Decimal

/-- A positive binary number together with the distance to its neighbours. -/
structure BinaryNumber where
  mantissa : Nat
  exponent : Int
  /-- Whether the neighbour below is only half as far as the one above. -/
  halfBelow : Bool

structure Fraction where
  num : Nat
  den : Nat

namespace Fraction

/-- The fraction `n * 2 ^ e`. -/
def scaled (n : Nat) (e : Int) : Fraction :=
  if 0 ≤ e then ⟨n * Nat.pow 2 e.toNat, 1⟩ else ⟨n, Nat.pow 2 (-e).toNat⟩

/-- The fraction `n * 10 ^ e`. -/
def decimal (n : Nat) (e : Int) : Fraction :=
  if 0 ≤ e then ⟨n * Nat.pow 10 e.toNat, 1⟩ else ⟨n, Nat.pow 10 (-e).toNat⟩

def lt (a b : Fraction) : Bool :=
  a.num * b.den < b.num * a.den

/-- Whether one fraction is at most another. -/
def le (a b : Fraction) : Bool :=
  a.num * b.den ≤ b.num * a.den

/-- How many times `10 ^ e` goes into a fraction. -/
def quotient (a : Fraction) (e : Int) : Nat :=
  if 0 ≤ e then a.num / (a.den * Nat.pow 10 e.toNat) else a.num * Nat.pow 10 (-e).toNat / a.den

end Fraction

namespace BinaryNumber

def value (x : BinaryNumber) : Fraction :=
  .scaled x.mantissa x.exponent

def lower (x : BinaryNumber) : Fraction :=
  if x.halfBelow then .scaled (4 * x.mantissa - 1) (x.exponent - 2)
  else .scaled (2 * x.mantissa - 1) (x.exponent - 1)

def upper (x : BinaryNumber) : Fraction :=
  .scaled (2 * x.mantissa + 1) (x.exponent - 1)

def rounds (x : BinaryNumber) (f : Fraction) : Bool :=
  if x.mantissa % 2 = 0 then x.lower.le f && f.le x.upper else x.lower.lt f && f.lt x.upper

/-- The exponent `e` for which the number is at least `10 ^ (e - 1)` and below `10 ^ e`. -/
def magnitude (x : BinaryNumber) : Int :=
  let v := x.value
  if v.den ≤ v.num then ((Nat.toDigits 10 (v.num / v.den)).length : Int)
  else
    let inverse := (v.den + v.num - 1) / v.num
    1 - ((Nat.toDigits 10 (inverse - 1)).length : Int)

/-- The decimal number with the given last place that is next to the number, if one rounds to it. -/
def nearest? (x : BinaryNumber) (place : Int) : Option Nat :=
  let below := x.value.quotient place
  let above := below + 1
  match x.rounds (.decimal below place), x.rounds (.decimal above place) with
  | true, true =>
      let twice : Fraction := .scaled (2 * x.mantissa) x.exponent
      some (if twice.lt (.decimal (below + above) place) then below else above)
  | true, false => some below
  | false, true => some above
  | false, false => none

/-- The shortest digits of the number and their last place, with at least `digits` of them. -/
def shortestFrom (x : BinaryNumber) : Nat → Nat → Nat × Int
  | 0, _ => (0, 0)
  | steps + 1, digits =>
      let place := x.magnitude - digits
      match x.nearest? place with
      | some d => (d, place)
      | none => shortestFrom x steps (digits + 1)

/-- The shortest digits of the number and their last place; no number needs more than seventeen. -/
def shortest (x : BinaryNumber) : Nat × Int :=
  x.shortestFrom 20 1

end BinaryNumber

/-- The positional numeral of `n * 10 ^ place`, without needless zeros. -/
def positional (n : Nat) (place : Int) : String :=
  let digits := Nat.toDigits 10 n
  if 0 ≤ place then String.ofList (digits ++ List.replicate place.toNat '0')
  else
    let places := (-place).toNat
    let padded := List.replicate (places + 1 - digits.length) '0' ++ digits
    let whole := padded.take (padded.length - places)
    let fraction := (padded.drop (padded.length - places)).reverse.dropWhile (· == '0') |>.reverse
    if fraction.isEmpty then String.ofList whole else String.ofList (whole ++ '.' :: fraction)

/-- A binary interchange format: how many bits its exponent and its mantissa take. -/
structure FloatFormat where
  exponentBits : Nat
  mantissaBits : Nat

def binary32 : FloatFormat :=
  ⟨8, 23⟩

def binary64 : FloatFormat :=
  ⟨11, 52⟩

namespace FloatFormat

def isNegative (f : FloatFormat) (bits : Nat) : Bool :=
  bits.testBit (f.exponentBits + f.mantissaBits)

def exponentField (f : FloatFormat) (bits : Nat) : Nat :=
  bits / Nat.pow 2 f.mantissaBits % Nat.pow 2 f.exponentBits

def mantissaField (f : FloatFormat) (bits : Nat) : Nat :=
  bits % Nat.pow 2 f.mantissaBits

def bias (f : FloatFormat) : Nat :=
  Nat.pow 2 (f.exponentBits - 1) - 1

def isSpecial (f : FloatFormat) (bits : Nat) : Bool :=
  f.exponentField bits == Nat.pow 2 f.exponentBits - 1

def lowestPlace (f : FloatFormat) : Int :=
  1 - (f.bias : Int) - f.mantissaBits

def magnitude (f : FloatFormat) (bits : Nat) : BinaryNumber :=
  let m := f.mantissaField bits
  let e := f.exponentField bits
  if e = 0 then ⟨m, f.lowestPlace, false⟩
  else ⟨Nat.pow 2 f.mantissaBits + m, f.lowestPlace + (e - 1), m == 0 && e != 1⟩

def numeral (f : FloatFormat) (bits : Nat) : String :=
  let sign := if f.isNegative bits then "-" else ""
  if f.isSpecial bits then if f.mantissaField bits = 0 then sign ++ "inf" else "NaN"
  else
    let x := f.magnitude bits
    if x.mantissa = 0 then sign ++ "0"
    else
      let (n, place) := x.shortest
      sign ++ positional n place

end FloatFormat

/-- The 64 bits of the number that 32 bits stand for; a number that is none keeps its payload. -/
def widen (bits : Nat) : Nat :=
  let sign := if binary32.isNegative bits then Nat.pow 2 63 else 0
  let m := binary32.mantissaField bits
  let e := binary32.exponentField bits
  if e = 255 then sign + 2047 * Nat.pow 2 52 + m * Nat.pow 2 29
  else if e ≠ 0 then sign + (e + 896) * Nat.pow 2 52 + m * Nat.pow 2 29
  else if m = 0 then sign
  else
    let top := m.log2
    sign + (top + 874) * Nat.pow 2 52 + (m - Nat.pow 2 top) * Nat.pow 2 (52 - top)

end ShaderPipeline.Decimal

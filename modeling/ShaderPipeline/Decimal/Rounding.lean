import ShaderPipeline.Decimal.Shortest

/-!
Rounding of fractions to binary floating-point numbers.

A fraction goes to the nearest number of a format, and of two equally near ones to the one whose last bit is
zero.  Both normal and subnormal numbers are multiples of a power of two: of the power that leaves the fraction
one bit more than the mantissa has, but of no smaller one than the format has.  A fraction that is too large
goes to no number.
-/

set_option autoImplicit false
set_option relaxedAutoImplicit false

namespace ShaderPipeline.Decimal

namespace Fraction

def mul (a b : Fraction) : Fraction :=
  ⟨a.num * b.num, a.den * b.den⟩

def div (a b : Fraction) : Fraction :=
  ⟨a.num * b.den, a.den * b.num⟩

/-- The largest `e` for which a fraction is at least `2 ^ e`. -/
def binaryMagnitude (a : Fraction) : Int :=
  if a.den ≤ a.num then ((a.num / a.den).log2 : Int)
  else
    let inverse := (a.den + a.num - 1) / a.num
    .negSucc (inverse - 1).log2

/-- The nearest whole number, and of two equally near ones the even. -/
def nearestWhole (a : Fraction) : Nat :=
  let below := a.num / a.den
  let twice := 2 * (a.num % a.den)
  if twice < a.den || (twice == a.den && below % 2 == 0) then below else below + 1

end Fraction

namespace FloatFormat

def infinity (f : FloatFormat) : Nat :=
  (Nat.pow 2 f.exponentBits - 1) * Nat.pow 2 f.mantissaBits

/-- The bits of the nearest number.  The exponent field counts from the lowest place, and a mantissa that takes
one bit more than its field adds one to it. -/
def nearest? (f : FloatFormat) (a : Fraction) : Option Nat :=
  if a.num = 0 then some 0
  else
    let place := max f.lowestPlace (a.binaryMagnitude - f.mantissaBits)
    let mantissa := (a.mul (.scaled 1 (-place))).nearestWhole
    let bits := (place - f.lowestPlace).toNat * Nat.pow 2 f.mantissaBits + mantissa
    if bits < f.infinity then some bits else none

def fraction (f : FloatFormat) (bits : Nat) : Fraction :=
  (f.magnitude bits).value

end FloatFormat

end ShaderPipeline.Decimal

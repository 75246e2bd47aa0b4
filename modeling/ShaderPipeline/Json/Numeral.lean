import ShaderPipeline.Decimal.Rounding
import ShaderPipeline.Json.Value

/-!
Numerals of JSON texts and the numbers that they stand for.

A whole number that fits in 64 bits is exact.  Any other number is worked out in steps, each of which rounds to
binary64: the leading digits that fit in 64 bits are rounded, and the result is multiplied or divided by
rounded powers of ten.  So a numeral may stand for a neighbour of the binary64 number that is nearest to it.
-/

set_option autoImplicit false
set_option relaxedAutoImplicit false

namespace ShaderPipeline.Json

open Decimal (Fraction binary64)

def appendDigit (n : Nat) (d : Char) : Nat :=
  10 * n + (d.toNat - '0'.toNat)

def decimalValue (digits : List Char) : Nat :=
  digits.foldl appendDigit 0

/-- A number as it is written: sign, digits before and after the point, and exponent. -/
structure Numeral where
  negative : Bool
  whole : List Char
  fraction : Option (List Char)
  exponent : Option Int

def spanDigits (cs : List Char) : List Char × List Char :=
  cs.span Char.isDigit

def scanExponent : List Char → Option (Option Int)
  | [] => some none
  | e :: rest =>
      if e != 'e' && e != 'E' then none
      else
        let (sign, digits) : Int × List Char := match rest with
          | '+' :: ds => (1, ds)
          | '-' :: ds => (-1, ds)
          | ds => (1, ds)
        if digits.isEmpty || !digits.all Char.isDigit then none
        else some (some (sign * (decimalValue digits : Nat)))

/-- Reads a numeral: no leading zeros, and digits on either side of a point. -/
def scanNumeral (cs : List Char) : Option Numeral := do
  let (negative, unsigned) := match cs with
    | '-' :: rest => (true, rest)
    | all => (false, all)
  let (whole, rest) := spanDigits unsigned
  if whole.isEmpty || (whole.length > 1 && whole.head? == some '0') then none
  else
    match rest with
    | '.' :: more =>
        let (fraction, rest) := spanDigits more
        if fraction.isEmpty then none
        else
          let exponent ← scanExponent rest
          pure ⟨negative, whole, some fraction, exponent⟩
    | rest =>
        let exponent ← scanExponent rest
        pure ⟨negative, whole, none, exponent⟩

namespace Numeral

/-- Puts digits behind a number while it fits in 64 bits; gives the number and the digits that are left. -/
def takeDigits : Nat → List Char → Nat × List Char
  | n, [] => (n, [])
  | n, d :: rest =>
      if appendDigit n d < UInt64.size then takeDigits (appendDigit n d) rest else (n, d :: rest)

/-- The significand of 64 bits and the power of ten of a numeral.  A digit of the whole part that does not fit
ends the whole part, and one of the fraction that does not fit ends the numeral. -/
def parts (n : Numeral) : Nat × Int :=
  let fraction := n.fraction.getD []
  let (whole, skipped) := takeDigits 0 n.whole
  let (significand, ignored) := takeDigits whole fraction
  let places : Int := fraction.length - ignored.length
  (significand, n.exponent.getD 0 + skipped.length - places)

/-- The largest power of ten that is used in one step; the next one is too large for binary64. -/
def largestPower : Nat :=
  308

def tenTo (e : Nat) : Fraction :=
  binary64.fraction ((binary64.nearest? (.decimal 1 e)).getD 0)

/-- The number of the given bits times `10 ^ e`, as bits, rounded after each step; there are none if it is too
large for binary64. -/
def scale? (bits : Nat) (e : Int) : Option Nat :=
  let value := binary64.fraction bits
  if bits = 0 then some 0
  else if largestPower < e then none
  else if 0 ≤ e then binary64.nearest? (value.mul (tenTo e.toNat))
  else if -largestPower ≤ e then binary64.nearest? (value.div (tenTo e.natAbs))
  else do
    let smaller ← binary64.nearest? (value.div (tenTo largestPower))
    scale? smaller (e + largestPower)
termination_by e.natAbs
decreasing_by simp only [largestPower] at *; omega

def bits? (n : Numeral) : Option UInt64 := do
  let (significand, e) := n.parts
  let start ← binary64.nearest? ⟨significand, 1⟩
  let magnitude ← scale? start e
  pure (if n.negative then 0x8000000000000000 ||| .ofNat magnitude else .ofNat magnitude)

/-- The value of a numeral.  A numeral without fraction and exponent is a whole number if it fits in 64
bits and is not a negative zero. -/
def value (n : Numeral) : Json :=
  let whole := decimalValue n.whole
  let signed : Int := if n.negative then -(whole : Int) else whole
  let exact := Int64.minValue.toInt ≤ signed && signed < UInt64.size && !(n.negative && whole == 0)
  match n.fraction, n.exponent, exact with
  | none, none, true => .integer signed
  | _, _, _ => (n.bits?.map Json.float).getD .unreadable

end Numeral

end ShaderPipeline.Json

/-!
Hexadecimal numerals: lower-case digits when written, either case when read.
-/

set_option autoImplicit false
set_option relaxedAutoImplicit false

namespace ShaderPipeline.Text

def hexDigit? (c : Char) : Option Nat :=
  if '0' ≤ c ∧ c ≤ '9' then some (c.toNat - '0'.toNat)
  else if 'a' ≤ c ∧ c ≤ 'f' then some (c.toNat - 'a'.toNat + 10)
  else if 'A' ≤ c ∧ c ≤ 'F' then some (c.toNat - 'A'.toNat + 10)
  else none

def hexValue? : List Char → Option Nat
  | [] => none
  | c :: cs => (c :: cs).foldlM (fun n d => (hexDigit? d).map (16 * n + ·)) 0

def hex (n : Nat) : String :=
  String.ofList (Nat.toDigits 16 n)

/-- A number in at least `width` hexadecimal digits. -/
def hexPadded (width n : Nat) : String :=
  let digits := Nat.toDigits 16 n
  String.ofList (List.replicate (width - digits.length) '0' ++ digits)

def hexBytes? : List Char → Option (List UInt8)
  | [] => some []
  | [_] => none
  | a :: b :: cs => do
      let high ← hexDigit? a
      let low ← hexDigit? b
      let rest ← hexBytes? cs
      pure ((16 * high + low).toUInt8 :: rest)

end ShaderPipeline.Text

/-!
Words and numbers as bytes.
-/

set_option autoImplicit false
set_option relaxedAutoImplicit false

namespace ShaderPipeline

def wordBytes (w : UInt32) : List UInt8 :=
  [w.toUInt8, (w >>> 8).toUInt8, (w >>> 16).toUInt8, (w >>> 24).toUInt8]

def bytesWord (a b c d : UInt8) : UInt32 :=
  a.toUInt32 ||| (b.toUInt32 <<< 8) ||| (c.toUInt32 <<< 16) ||| (d.toUInt32 <<< 24)

/-- The words of some bytes, if these are a whole number of words. -/
def bytesWords? : List UInt8 → Option (List UInt32)
  | [] => some []
  | a :: b :: c :: d :: rest => (bytesWords? rest).map (bytesWord a b c d :: ·)
  | _ => none

def bytesNat (bytes : List UInt8) : Nat :=
  bytes.foldl (fun n b => 256 * n + b.toNat) 0

/-- The number that bytes stand for in two's complement, most significant first. -/
def bytesInt (bytes : List UInt8) : Int :=
  let n := bytesNat bytes
  match bytes with
  | [] => 0
  | first :: _ => if first < 128 then n else (n : Int) - (Nat.pow 256 bytes.length : Nat)

end ShaderPipeline

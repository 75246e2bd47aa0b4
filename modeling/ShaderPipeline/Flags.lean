import ShaderPipeline.Text.Blank
import ShaderPipeline.Text.Hex

/-!
Sets of named bits as text.

A set is written as the names of its bits in declaration order, separated by bars, and then the bits
without a name in hexadecimal.  Reading takes names and hexadecimal parts in any order.
-/

set_option autoImplicit false
set_option relaxedAutoImplicit false

namespace ShaderPipeline.Flags

/-- Names for single bits, or for several bits at once, in declaration order. -/
abbrev Names := List (String × UInt32)

inductive ReadError where
  | emptyPart
  | invalidHex
  | unknownName
  deriving DecidableEq, Repr

def ReadError.message : ReadError → String
  | emptyPart => "encountered empty flag"
  | invalidHex => "invalid hex flag"
  | unknownName => "unrecognized named flag"

/-- The names whose bits are all set, each covering a bit that no earlier name covers, and the bits that
are left. -/
def split : Names → UInt32 → UInt32 → List String × UInt32
  | [], _, remaining => ([], remaining)
  | (name, bits) :: names, source, remaining =>
      if source &&& bits = bits ∧ remaining &&& bits ≠ 0 then
        let rest := split names source (remaining &&& ~~~bits)
        (name :: rest.1, rest.2)
      else split names source remaining

def render (names : Names) (bits : UInt32) : String :=
  let parts := split names bits bits
  " | ".intercalate
    (parts.1 ++ if parts.2 = 0 then [] else ["0x" ++ Text.hex parts.2.toNat])

/-- The bits of a hexadecimal numeral, which may start with a plus sign. -/
def hexBits? (digits : List Char) : Option UInt32 := do
  let unsigned := match digits with
    | '+' :: rest => rest
    | all => all
  let n ← Text.hexValue? unsigned
  if n < UInt32.size then some (UInt32.ofNat n) else none

def readPart (names : Names) (part : List Char) : Except ReadError UInt32 :=
  match Text.dropBlankEnds part with
  | [] => .error .emptyPart
  | '0' :: 'x' :: digits =>
      match hexBits? digits with
      | some bits => .ok bits
      | none => .error .invalidHex
  | name =>
      match names.find? (·.1.toList == name) with
      | some named => .ok named.2
      | none => .error .unknownName

/-- The set of bits that a text denotes; a blank text denotes the empty set. -/
def read (names : Names) (text : String) : Except ReadError UInt32 :=
  if Text.isBlankText text then .ok 0
  else
    (Text.pieces (· == '|') text.toList).foldlM
      (fun bits part => (readPart names part).map (bits ||| ·)) 0

end ShaderPipeline.Flags

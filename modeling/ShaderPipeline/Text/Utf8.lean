/-!
Texts in UTF-8 and where they go wrong.

Decoding stops at the first byte that cannot continue a character.  The fault tells where the broken character
starts and how many of its bytes were well formed, or that the text ends within it.
-/

set_option autoImplicit false
set_option relaxedAutoImplicit false

namespace ShaderPipeline.Text

inductive Utf8Fault where
  /-- A character starts at `start` and breaks off after `length` bytes. -/
  | invalid (start length : Nat)
  /-- The bytes end inside the character that starts at `start`. -/
  | incomplete (start : Nat)
  deriving DecidableEq, Repr

def Utf8Fault.message : Utf8Fault → String
  | invalid start length => s!"invalid utf-8 sequence of {length} bytes from index {start}"
  | incomplete start => s!"incomplete utf-8 byte sequence from index {start}"

/-- How many bytes follow the first byte of a character, and between which bounds the second one lies. -/
def utf8Lead? (b : Nat) : Option (Nat × Nat × Nat) :=
  if b < 0x80 then some (0, 0, 0)
  else if 0xC2 ≤ b ∧ b ≤ 0xDF then some (1, 0x80, 0xBF)
  else if b = 0xE0 then some (2, 0xA0, 0xBF)
  else if b = 0xED then some (2, 0x80, 0x9F)
  else if 0xE1 ≤ b ∧ b ≤ 0xEF then some (2, 0x80, 0xBF)
  else if b = 0xF0 then some (3, 0x90, 0xBF)
  else if b = 0xF4 then some (3, 0x80, 0x8F)
  else if 0xF1 ≤ b ∧ b ≤ 0xF3 then some (3, 0x80, 0xBF)
  else none

/-- The bits that the first byte of a character contributes when `more` bytes follow. -/
def utf8LeadBits (more b : Nat) : Nat :=
  if more = 0 then b else if more = 1 then b % 32 else if more = 2 then b % 16 else b % 8

/-- Where decoding stands: after some characters, last first, at the start of the next or inside it. -/
structure Utf8State where
  done : List Char
  /-- Where the current character starts, or would start. -/
  start : Nat
  /-- How many bytes of the current character were read. -/
  taken : Nat
  /-- How many bytes of the current character are missing. -/
  missing : Nat
  /-- The bounds of the next byte, inside a character. -/
  low : Nat
  high : Nat
  /-- The bits of the current character so far. -/
  bits : Nat

def utf8Step (s : Utf8State) (byte : UInt8) : Except Utf8Fault Utf8State :=
  let b := byte.toNat
  if s.missing = 0 then
    match utf8Lead? b with
    | none => .error (.invalid s.start 1)
    | some (0, _, _) => .ok { s with done := Char.ofNat b :: s.done, start := s.start + 1 }
    | some (more, low, high) =>
        .ok { s with taken := 1, missing := more, low, high, bits := utf8LeadBits more b }
  else if s.low ≤ b ∧ b ≤ s.high then
    let bits := 64 * s.bits + b % 64
    if s.missing = 1 then
      .ok ⟨Char.ofNat bits :: s.done, s.start + s.taken + 1, 0, 0, 0, 0, 0⟩
    else
      .ok { s with taken := s.taken + 1, missing := s.missing - 1, low := 0x80, high := 0xBF, bits }
  else .error (.invalid s.start s.taken)

def utf8Text (bytes : List UInt8) : Except Utf8Fault String := do
  let s ← bytes.foldlM utf8Step ⟨[], 0, 0, 0, 0, 0, 0⟩
  if s.missing = 0 then pure (String.ofList s.done.reverse) else throw (.incomplete s.start)

end ShaderPipeline.Text

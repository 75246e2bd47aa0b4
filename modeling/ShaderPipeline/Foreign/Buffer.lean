import ShaderPipeline.Foreign.Error

/-!
Passing texts in and items out.

A text comes as bytes up to a zero.  Items are asked for twice: without a buffer for their number, then with a
buffer to put them into.  The number goes through a cell that holds the capacity of the buffer before.
-/

set_option autoImplicit false
set_option relaxedAutoImplicit false

namespace ShaderPipeline

/-- A text from outside; nothing for a null pointer. -/
abbrev TextArgument := Option (List UInt8)

def TextArgument.bytes (t : TextArgument) (parameter : String) :
    Except ForeignError (List UInt8) :=
  match t with
  | some bytes => .ok bytes
  | none => .error (.invalidParameter parameter)

def foreignText (bytes : List UInt8) : Except ForeignError String :=
  match String.fromUTF8? ⟨(bytes.takeWhile (· != 0)).toArray⟩ with
  | some text => .ok text
  | none => .error .invalidText

def terminatedBytes (text : String) : List UInt8 :=
  text.toUTF8.toList ++ [0]

def requireGiven (isGiven : Bool) (parameter : String) : Except ForeignError Unit :=
  if isGiven then .ok () else .error (.invalidParameter parameter)

/-- Where items are put: perhaps a buffer, and a cell for their number. -/
structure BufferArgument where
  /-- Whether there is a buffer. -/
  hasBuffer : Bool
  /-- Whether there is a cell. -/
  hasCell : Bool
  /-- What the cell holds. -/
  cell : Nat
  deriving DecidableEq, Repr

/-- What comes of passing items out: the items that were written, or an error, and what the cell holds then. -/
abbrev Passed (α : Type) := Except ForeignError (List α) × Nat

namespace BufferArgument

/-- Writes items, if there is a buffer, and their number. -/
def pass {α : Type} (b : BufferArgument) (items : List α) : Passed α :=
  if b.hasBuffer then
    if b.cell < items.length then (.error (.bufferTooSmall items.length b.cell), b.cell)
    else (.ok items, items.length)
  else (.ok [], items.length)

/-- Writes the items that are found; an error leaves the cell as it is. -/
def passFound {α : Type} (b : BufferArgument) : Except ForeignError (List α) → Passed α
  | .ok items => b.pass items
  | .error e => (.error e, b.cell)

end BufferArgument

end ShaderPipeline

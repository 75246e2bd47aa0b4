import ShaderPipeline.Bytes
import ShaderPipeline.Spirv.Grammar
import ShaderPipeline.Text.Quoted
import ShaderPipeline.Text.Utf8

/-!
Reading instructions from the words of a module.

An instruction states how many words it has, and its operands are read within that limit.  How wide a number
is depends on the numeric types seen so far.  Faults tell where they are, in bytes from the start.
-/

set_option autoImplicit false
set_option relaxedAutoImplicit false

namespace ShaderPipeline.Spirv

abbrev Id := UInt32

inductive Operand where
  | id (value : Id)
  | literal (value : UInt32)
  | wideLiteral (value : UInt64)
  | text (value : String)
  | symbol (kind : EnumKind) (value : Nat)
  | mask (kind : MaskKind) (value : Nat)
  | operation (op : Op)
  deriving DecidableEq, Repr

structure Instruction where
  op : Op
  type : Option Id
  result : Option Id
  operands : List Operand
  deriving DecidableEq, Repr

inductive OperandFault where
  | dataEnds (index : Nat)
  | limitReached (index : Nat)
  | unknownValue (value : Nat) (kind : String) (index : Nat)
  | malformedText (index : Nat) (fault : Text.Utf8Fault)
  deriving DecidableEq, Repr

def OperandFault.message : OperandFault → String
  | dataEnds index => s!"expected more bytes in the stream at index {index}"
  | limitReached index => s!"reached word limit at index {index}"
  | unknownValue value kind index =>
      s!"unknown value {value} for operand kind {kind} at index {index}"
  | malformedText index fault => s!"cannot decode string at index {index}: {fault.message}"

inductive LayoutFault where
  | nestedFunction
  | unclosedFunction
  | strayFunctionEnd
  | strayParameter
  | strayBlock
  | nestedBlock
  | unclosedBlock
  | strayTerminator
  | strayInstruction (op : Op)
  deriving DecidableEq, Repr

def LayoutFault.message : LayoutFault → String
  | nestedFunction => "found nested function"
  | unclosedFunction => "found unclosed function"
  | strayFunctionEnd => "found mismatched OpFunctionEnd"
  | strayParameter => "found function OpFunctionParameter not inside function"
  | strayBlock => "found block not inside function"
  | nestedBlock => "found nested block"
  | unclosedBlock => "found block without terminator"
  | strayTerminator => "found mismatched terminator"
  | strayInstruction op => s!"found instruction `{Text.quoted op.title}` not inside block"

inductive ModuleFault where
  | headerIncomplete (index : Nat)
  | headerIncorrect
  | wrongEndianness
  | zeroWordCount (instruction offset : Nat)
  | unknownOpcode (code instruction offset : Nat)
  | operandMissing (instruction offset : Nat)
  | operandSurplus (instruction offset : Nat)
  | unsupportedType (instruction offset : Nat)
  | unknownOperation (instruction offset : Nat)
  | operand (fault : OperandFault)
  | layout (fault : LayoutFault)
  deriving DecidableEq, Repr

def position (instruction offset : Nat) : String :=
  s!"for instruction #{instruction} at offset {offset}"

def ModuleFault.message : ModuleFault → String
  | headerIncomplete index => "incomplete module header: " ++ (OperandFault.dataEnds index).message
  | headerIncorrect => "incorrect module header"
  | wrongEndianness => "unsupported endianness"
  | zeroWordCount i o => "zero word count found " ++ position i o
  | unknownOpcode code i o => s!"unknown opcode ({code}) " ++ position i o
  | operandMissing i o => "expected more operands " ++ position i o
  | operandSurplus i o => "found extra operands " ++ position i o
  | unsupportedType i o => "unsupported type " ++ position i o
  | unknownOperation i o => "incorrect SpecConstantOp number " ++ position i o
  | operand fault => "operand decoding error: " ++ fault.message
  | layout fault => "consumer error: " ++ fault.message

/-- The words that are left, how many came before, and how many of them the instruction may take. -/
structure Cursor where
  rest : List UInt32
  index : Nat
  limit : Nat

namespace Cursor

def offset (c : Cursor) : Nat :=
  4 * c.index

def word (c : Cursor) : Except OperandFault (UInt32 × Cursor) :=
  if c.limit = 0 then .error (.limitReached c.offset)
  else
    match c.rest with
    | [] => .error (.dataEnds c.offset)
    | w :: rest => .ok (w, ⟨rest, c.index + 1, c.limit - 1⟩)

/-- Takes a word that stands for named values; where the instruction has none left, the data is said to end. -/
def namedWord (c : Cursor) : Except OperandFault (UInt32 × Cursor) :=
  c.word.mapError fun _ => .dataEnds c.offset

def skip (c : Cursor) (n : Nat) : Cursor :=
  ⟨c.rest.drop n, c.index + n, c.limit - n⟩

/-- Takes a text: the bytes up to the first zero, and all words up to the one that holds it. -/
def text (c : Cursor) : Except OperandFault (String × Cursor) :=
  let bytes := (c.rest.take c.limit).flatMap wordBytes
  let content := bytes.takeWhile (· != 0)
  if content.length = bytes.length then .error (.limitReached (c.offset + 4 * c.limit))
  else
    match Text.utf8Text content with
    | .ok s => .ok (s, c.skip (content.length / 4 + 1))
    | .error fault => .error (.malformedText c.offset fault)

def sequence (read : OperandKind → Cursor → Except OperandFault (List Operand × Cursor)) :
    List OperandKind → Cursor → Except OperandFault (List Operand × Cursor)
  | [], c => .ok ([], c)
  | kind :: kinds, c => do
      let (first, c) ← read kind c
      let (later, c) ← sequence read kinds c
      pure (first ++ later, c)

/-- Takes an operand that needs no context and takes no operands of its own. -/
def plain (kind : OperandKind) (c : Cursor) : Except OperandFault (List Operand × Cursor) := do
  match kind with
  | .text =>
      let (s, c) ← c.text
      pure ([.text s], c)
  | .id =>
      let (w, c) ← c.word
      pure ([.id w], c)
  | .enumeration kind =>
      let (w, after) ← c.namedWord
      if (kind.valueName? w.toNat).isNone then throw (.unknownValue w.toNat kind.title c.offset)
      pure ([.symbol kind w.toNat], after)
  | .mask kind =>
      let (w, after) ← c.namedWord
      if !kind.isKnown w.toNat then throw (.unknownValue w.toNat kind.title c.offset)
      pure ([.mask kind w.toNat], after)
  | .literal | .number | .operation =>
      let (w, c) ← c.word
      pure ([.literal w], c)
  | .literalThenId =>
      let (w, c) ← c.word
      let (id, c) ← c.word
      pure ([.literal w, .id id], c)
  | .idThenLiteral =>
      let (id, c) ← c.word
      let (w, c) ← c.word
      pure ([.id id, .literal w], c)
  | .twoIds =>
      let (first, c) ← c.word
      let (second, c) ← c.word
      pure ([.id first, .id second], c)

def operand (kind : OperandKind) (c : Cursor) : Except OperandFault (List Operand × Cursor) := do
  let (taken, c) ← c.plain kind
  let arguments := match taken with
    | [.symbol kind value] => kind.arguments value
    | [.mask kind value] => kind.arguments value
    | _ => []
  let (more, c) ← sequence plain arguments c
  pure (taken ++ more, c)

end Cursor

inductive NumericType where
  | int (width : Nat) (signed : Bool)
  | float (width : Nat)
  deriving DecidableEq, Repr

namespace NumericType

/-- How many words a number of the type takes, for the widths that numbers have. -/
def words? : NumericType → Option Nat
  | int 8 _ | int 16 _ | int 32 _ | float 16 | float 32 => some 1
  | int 64 _ | float 64 => some 2
  | _ => none

end NumericType

abbrev NumericTypes := List (Id × NumericType)

namespace NumericTypes

def find? (types : NumericTypes) (id : Id) : Option NumericType :=
  (List.find? (·.1 == id) types).map (·.2)

/-- What is known of a result: a numeric type itself, or the numeric type it has. -/
def ofInstruction? (types : NumericTypes) (i : Instruction) : Option NumericType :=
  match i.op, i.operands with
  | .typeInt, [.literal width, .literal signed] => some (.int width.toNat (signed == 1))
  | .typeFloat, .literal width :: _ => some (.float width.toNat)
  | _, _ => if i.op.hasType then i.type.bind (find? types) else none

def track (types : NumericTypes) (i : Instruction) : NumericTypes :=
  match i.result, ofInstruction? types i with
  | some id, some type => (id, type) :: types
  | _, _ => types

end NumericTypes

structure Partial where
  type : Option Id
  operands : List Operand
  cursor : Cursor

def readNumber (types : NumericTypes) (type : Option Id) (number : Nat) (c : Cursor) :
    Except ModuleFault (Operand × Cursor) := do
  let words ← match type.bind types.find? with
    | none => pure 1
    | some t =>
        match t.words? with
        | some n => pure n
        | none => throw (.unsupportedType number c.offset)
  let (low, c) ← c.word.mapError .operand
  if words = 1 then pure (.literal low, c)
  else
    let (high, c) ← c.word.mapError .operand
    pure (.wideLiteral (low.toUInt64 ||| (high.toUInt64 <<< 32)), c)

def readOperation (number : Nat) (c : Cursor) : Except ModuleFault (List Operand × Cursor) := do
  let (w, c) ← c.word.mapError .operand
  match Op.ofCode? (w.toNat % UInt16.size) with
  | none => throw (.unknownOperation number c.offset)
  | some op =>
      let (operands, c) ←
        (Cursor.sequence Cursor.operand (op.operands.map (·.1)) c).mapError .operand
      pure (.operation op :: operands, c)

def readOperand (types : NumericTypes) (type : Option Id) (number : Nat) (kind : OperandKind)
    (c : Cursor) : Except ModuleFault (List Operand × Cursor) := do
  match kind with
  | .number =>
      let (operand, c) ← readNumber types type number c
      pure ([operand], c)
  | .operation => readOperation number c
  | kind => (c.operand kind).mapError .operand

/-- Takes the operands of an instruction up to its limit, repeating the last one if it may occur often.  The
first argument bounds how many are taken. -/
def readOperands (types : NumericTypes) (type : Option Id) (number : Nat) :
    Nat → List (OperandKind × Quantity) → Cursor → Except ModuleFault (List Operand × Cursor)
  | _, [], c => .ok ([], c)
  | 0, _, c => .ok ([], c)
  | steps + 1, (kind, quantity) :: rest, c =>
      if c.limit = 0 then
        match quantity with
        | .one => .error (.operandMissing number c.offset)
        | .optional | .many => .ok ([], c)
      else do
        let (first, c) ← readOperand types type number kind c
        let next := if quantity = .many then (kind, quantity) :: rest else rest
        let (later, c) ← readOperands types type number steps next c
        pure (first ++ later, c)

/-- Takes an id that an operation has, or none. -/
def readId (has : Bool) (number : Nat) (c : Cursor) : Except ModuleFault (Option Id × Cursor) := do
  if !has then pure (none, c)
  else if c.limit = 0 then throw (.operandMissing number c.offset)
  else
    let (w, c) ← c.word.mapError .operand
    pure (some w, c)

/-- Takes the instruction with the given number, whose first word is given. -/
def readInstruction (types : NumericTypes) (number : Nat) (first : UInt32) (rest : List UInt32)
    (index : Nat) : Except ModuleFault (Instruction × Cursor) := do
  let words := first.toNat / UInt16.size
  let code := first.toNat % UInt16.size
  if words = 0 then throw (.zeroWordCount number (4 * index))
  let some op := Op.ofCode? code | throw (.unknownOpcode code number (4 * index))
  let (type, c) ← readId op.hasType number ⟨rest, index + 1, words - 1⟩
  let (result, c) ← readId op.hasResult number c
  let (operands, c) ← readOperands types type number (words + op.operands.length) op.operands c
  if c.limit ≠ 0 then throw (.operandSurplus number c.offset)
  pure (⟨op, type, result, operands⟩, c)

end ShaderPipeline.Spirv

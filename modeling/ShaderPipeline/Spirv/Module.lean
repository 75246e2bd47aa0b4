import ShaderPipeline.Spirv.Reader

/-!
Modules: a header, then instructions, each filed where its operation belongs.

Instructions outside functions belong to sections.  A function has parameters and blocks, and a block starts
with a label and ends with a terminator.  An instruction that has no place where it stands is a fault, and so is
a function or a block that the end of the words leaves open.
-/

set_option autoImplicit false
set_option relaxedAutoImplicit false

namespace ShaderPipeline.Spirv

/-- A label and what follows it up to the terminator, which comes last. -/
structure Block where
  label : Instruction
  body : List Instruction
  deriving DecidableEq, Repr

structure Function where
  start : Instruction
  parameters : List Instruction
  blocks : List Block
  finish : Option Instruction
  deriving DecidableEq, Repr

/-- What a module says of itself before its instructions. -/
structure Header where
  major : Nat
  minor : Nat
  bound : Nat
  deriving DecidableEq, Repr

/-- The instructions of a module: those outside functions with their sections, in order, and the functions. -/
structure Module where
  header : Header
  filed : List (Section × Instruction)
  functions : List Function
  deriving DecidableEq, Repr

namespace Module

def ofSection (m : Module) (s : Section) : List Instruction :=
  (m.filed.filter (·.1 == s)).map (·.2)

def globals (m : Module) : List Instruction :=
  m.ofSection .globals

end Module

/-- A module of which the last function and its last block may be open. -/
structure Draft where
  module : Module
  function : Option Function
  block : Option Block
  deriving DecidableEq, Repr

namespace Draft

/-- A draft of which only the header is known. -/
def ofHeader (header : Header) : Draft :=
  ⟨⟨header, [], []⟩, none, none⟩

def file (d : Draft) (s : Section) (i : Instruction) : Draft :=
  { d with module := { d.module with filed := d.module.filed ++ [(s, i)] } }

def addToBlock (d : Draft) (i : Instruction) : Except LayoutFault Draft :=
  match d.block with
  | some block => .ok { d with block := some { block with body := block.body ++ [i] } }
  | none => .error (.strayInstruction i.op)

def openFunction (d : Draft) (i : Instruction) : Except LayoutFault Draft :=
  match d.function with
  | some _ => .error .nestedFunction
  | none => .ok { d with function := some ⟨i, [], [], none⟩ }

def addParameter (d : Draft) (i : Instruction) : Except LayoutFault Draft :=
  match d.function with
  | none => .error .strayParameter
  | some f => .ok { d with function := some { f with parameters := f.parameters ++ [i] } }

def closeFunction (d : Draft) (i : Instruction) : Except LayoutFault Draft :=
  match d.function, d.block with
  | none, _ => .error .strayFunctionEnd
  | some _, some _ => .error .unclosedBlock
  | some f, none =>
      let functions := d.module.functions ++ [{ f with finish := some i }]
      .ok { d with module := { d.module with functions }, function := none }

def openBlock (d : Draft) (i : Instruction) : Except LayoutFault Draft :=
  match d.function, d.block with
  | none, _ => .error .strayBlock
  | some _, some _ => .error .nestedBlock
  | some _, none => .ok { d with block := some ⟨i, []⟩ }

def closeBlock (d : Draft) (i : Instruction) : Except LayoutFault Draft :=
  match d.block, d.function with
  | none, _ | some _, none => .error .strayTerminator
  | some block, some f =>
      let blocks := f.blocks ++ [{ block with body := block.body ++ [i] }]
      .ok { d with function := some { f with blocks }, block := none }

def place (d : Draft) (i : Instruction) : Except LayoutFault Draft :=
  match i.op.home with
  | .globalOrBlock => if d.function.isNone then .ok (d.file .globals i) else d.addToBlock i
  | .blockOrGlobal => if d.block.isNone then .ok (d.file .globals i) else d.addToBlock i
  | .functionStart => d.openFunction i
  | .functionParameter => d.addParameter i
  | .functionEnd => d.closeFunction i
  | .blockStart => d.openBlock i
  | .blockEnd => d.closeBlock i
  | .block => d.addToBlock i
  | home => .ok (d.file home i)

def finish (d : Draft) : Except LayoutFault Module :=
  match d.block, d.function with
  | some _, _ => .error .unclosedBlock
  | none, some _ => .error .unclosedFunction
  | none, none => .ok d.module

end Draft

def magic : UInt32 :=
  0x07230203

/-- The word that modules with the opposite order of bytes start with. -/
def swappedMagic : UInt32 :=
  0x03022307

/-- Reads the header: five words, of which the second has the version in its middle bytes and the fourth is the
bound. -/
def readHeader (words : List UInt32) : Except ModuleFault (Header × List UInt32) :=
  match words with
  | first :: version :: _ :: bound :: _ :: rest =>
      if first = magic then
        .ok (⟨(version >>> 16).toNat % 256, (version >>> 8).toNat % 256, bound.toNat⟩, rest)
      else if first = swappedMagic then .error .wrongEndianness
      else .error .headerIncorrect
  | _ => .error (.headerIncomplete (4 * words.length))

/-- Reads and places instructions up to the end of the words; the first argument bounds their number. -/
def readInstructions : Nat → NumericTypes → Nat → Nat → List UInt32 → Draft →
    Except ModuleFault Draft
  | 0, _, _, _, _, d => .ok d
  | _, _, _, _, [], d => .ok d
  | steps + 1, types, number, index, first :: rest, d => do
      let (i, c) ← readInstruction types number first rest index
      let d ← (d.place i).mapError .layout
      readInstructions steps (types.track i) (number + 1) c.index c.rest d

def Module.ofWords (words : List UInt32) : Except ModuleFault Module := do
  let (header, rest) ← readHeader words
  let d ← readInstructions rest.length [] 1 5 rest (Draft.ofHeader header)
  d.finish.mapError .layout

end ShaderPipeline.Spirv

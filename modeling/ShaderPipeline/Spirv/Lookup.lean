import ShaderPipeline.Spirv.Module

/-!
What a module says of an id: its definition, its names and its decorations.

Of several definitions or names the last one counts, of several decorations of one kind the first one.
-/

set_option autoImplicit false
set_option relaxedAutoImplicit false

namespace ShaderPipeline.Spirv

inductive Decoration where
  | specId | bufferBlock | arrayStride | builtIn | nonWritable | nonReadable | location | binding
  | descriptorSet | offset
  deriving DecidableEq, Repr

def Decoration.code : Decoration → Nat
  | specId => 1
  | bufferBlock => 3
  | arrayStride => 6
  | builtIn => 11
  | nonWritable => 24
  | nonReadable => 25
  | location => 30
  | binding => 33
  | descriptorSet => 34
  | offset => 35

/-- The storage classes that reflection looks at. -/
inductive StorageClass where
  | uniformConstant | input | uniform | output | pushConstant | storageBuffer
  deriving DecidableEq, Repr

def StorageClass.code : StorageClass → Nat
  | uniformConstant => 0
  | input => 1
  | uniform => 2
  | output => 3
  | pushConstant => 9
  | storageBuffer => 12

def StorageClass.ofCode? (code : Nat) : Option StorageClass :=
  [uniformConstant, input, uniform, output, pushConstant, storageBuffer].find? (·.code == code)

namespace Module

def definition? (m : Module) (id : Id) : Option Instruction :=
  m.globals.reverse.find? (·.result == some id)

def givenName? (id : Id) (i : Instruction) : Option String :=
  match i.op, i.operands with
  | .name, [.id target, .text name] => if target = id then some name else none
  | _, _ => none

/-- The name that a naming instruction gives to a member of a structure. -/
def givenMemberName? (id : Id) (member : Nat) (i : Instruction) : Option String :=
  match i.op, i.operands with
  | .memberName, [.id target, .literal index, .text name] =>
      if target = id ∧ index.toNat = member then some name else none
  | _, _ => none

/-- The name of an id, unless it is empty. -/
def name? (m : Module) (id : Id) : Option String :=
  ((m.ofSection .names).reverse.findSome? (givenName? id)).filter (· != "")

/-- The name of a member of a structure, unless it is empty. -/
def memberName? (m : Module) (id : Id) (member : Nat) : Option String :=
  ((m.ofSection .names).reverse.findSome? (givenMemberName? id member)).filter (· != "")

/-- The name of an id, or one made from its number. -/
def nameOrNumber (m : Module) (id : Id) : String :=
  (m.name? id).getD s!"_{id}"

/-- The operands of a decoration that an annotation gives to an id. -/
def givenDecoration? (id : Id) (d : Decoration) (i : Instruction) : Option (List Operand) :=
  match i.op, i.operands with
  | .decorate, .id target :: .symbol .decoration code :: operands =>
      if target = id ∧ code = d.code then some operands else none
  | _, _ => none

/-- The operands of a decoration that an annotation gives to a member of a structure. -/
def givenMemberDecoration? (id : Id) (member : Nat) (d : Decoration) (i : Instruction) :
    Option (List Operand) :=
  match i.op, i.operands with
  | .memberDecorate, .id target :: .literal index :: .symbol .decoration code :: operands =>
      if target = id ∧ index.toNat = member ∧ code = d.code then some operands else none
  | _, _ => none

def decoration? (m : Module) (id : Id) (d : Decoration) : Option (List Operand) :=
  (m.ofSection .annotations).findSome? (givenDecoration? id d)

def memberDecoration? (m : Module) (id : Id) (member : Nat) (d : Decoration) :
    Option (List Operand) :=
  (m.ofSection .annotations).findSome? (givenMemberDecoration? id member d)

def isDecorated (m : Module) (id : Id) (d : Decoration) : Bool :=
  (m.decoration? id d).isSome

def isMemberDecorated (m : Module) (id : Id) (member : Nat) (d : Decoration) : Bool :=
  (m.memberDecoration? id member d).isSome

def firstWord? : List Operand → Option Nat
  | .literal w :: _ => some w.toNat
  | _ => none

def decorationWord? (m : Module) (id : Id) (d : Decoration) : Option Nat :=
  (m.decoration? id d).bind firstWord?

/-- The word that a decoration of a member of a structure states. -/
def memberDecorationWord? (m : Module) (id : Id) (member : Nat) (d : Decoration) : Option Nat :=
  (m.memberDecoration? id member d).bind firstWord?

def constantWord? (m : Module) (id : Id) : Option Nat := do
  let i ← m.definition? id
  match i.op, i.operands with
  | .constant, .literal w :: _ => some w.toNat
  | .constant, .wideLiteral w :: _ => if w.toNat < UInt32.size then some w.toNat else none
  | _, _ => none

/-- The class and the target of a pointer type, if reflection looks at the class. -/
def pointer? (m : Module) (id : Id) : Option (StorageClass × Id) := do
  let i ← m.definition? id
  match i.op, i.operands with
  | .typePointer, [.symbol .storageClass code, .id target] =>
      (StorageClass.ofCode? code).map (·, target)
  | _, _ => none

def members? (m : Module) (id : Id) : Option (List Id) := do
  let i ← m.definition? id
  match i.op with
  | .typeStruct => some (i.operands.filterMap fun operand => match operand with
      | .id member => some member
      | _ => none)
  | _ => none

end Module

structure Variable where
  id : Id
  storage : StorageClass
  /-- What the variable's type points to. -/
  target : Id
  deriving DecidableEq, Repr

namespace Module

/-- The variable that a global declares, if reflection looks at its storage class. -/
def variableOf? (m : Module) (i : Instruction) : Option Variable := do
  match i.op with
  | .variableOp =>
      let (storage, target) ← m.pointer? (← i.type)
      pure ⟨← i.result, storage, target⟩
  | _ => none

def globalVariables (m : Module) : List Variable :=
  m.globals.filterMap m.variableOf?

/-- The name of a variable, else that of its type, else one made from its number. -/
def variableName (m : Module) (id type : Id) : String :=
  ((m.name? id).or (m.name? type)).getD s!"_{id}"

end Module

end ShaderPipeline.Spirv

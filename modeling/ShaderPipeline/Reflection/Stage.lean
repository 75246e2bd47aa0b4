import ShaderPipeline.Reflection.Descriptors

/-!
The reflection of a stage: everything found out about its binary, or the first reason to refuse it.
-/

set_option autoImplicit false
set_option relaxedAutoImplicit false

namespace ShaderPipeline

open Spirv

namespace Spirv.Module

/-- The members of a push-constant block of a given name, from a given index on. -/
def pushMembers (m : Module) (block : String) (type : Id) :
    Nat → List Id → Except ReflectError (List PushMember)
  | _, [] => .ok []
  | index, member :: rest => do
      let name := (m.memberName? type index).getD s!"_m{index}"
      let offset := (m.memberDecorationWord? type index .offset).getD 0
      let some size := (m.size? member).filter fun size => (inWord? (offset + size)).isSome
        | throw (.memberTooLarge block name)
      pure (⟨name, size, offset⟩ :: (← pushMembers m block type (index + 1) rest))

def pushBlock (m : Module) (stage : StageSet) (v : Variable) : Except ReflectError PushBlock := do
  let name := m.variableName v.id v.target
  pure ⟨stage, name, ← m.pushMembers name v.target 0 ((m.members? v.target).getD []), 0⟩

/-- The push-constant block of a stage, which has at most one. -/
def pushConstant (m : Module) (stage : StageSet) : Except ReflectError (Option PushBlock) := do
  match m.globalVariables.filter (·.storage = .pushConstant) with
  | [] => pure none
  | first :: rest =>
      let block ← m.pushBlock stage first
      match rest with
      | [] => pure (some block)
      | second :: _ =>
          throw (.severalPushBlocks block.name (m.variableName second.id second.target))

/-- Whether a variable, or a member of its type, is built into the pipeline. -/
def isBuiltIn (m : Module) (id type : Id) : Bool :=
  m.isDecorated id .builtIn ||
    match m.members? type with
    | some members => (List.range members.length).any (m.isMemberDecorated type · .builtIn)
    | none => false

/-- The format and, if it fits in a word, the size of an attribute of a type. -/
def attributeShape (m : Module) (type : Id) : Format × Option Nat :=
  match m.components? type with
  | some c =>
      (if c.isMatrix then .unknown else .ofComponents c.scalar c.count,
        inWord? (c.count * c.scalar.byteWidth))
  | none => (.unknown, m.size? type)

/-- The attributes of some variables, laid out one after another from an offset on.  Variables that are built in
and those without a location are no attributes. -/
def attributesFrom (m : Module) (isArrayed : Bool) :
    Nat → List Variable → Except ReflectError (List Attribute)
  | _, [] => .ok []
  | offset, v :: rest => do
      let type := if isArrayed then m.elementType v.target else v.target
      match m.isBuiltIn v.id type, m.decorationWord? v.id .location with
      | true, _ | false, none => attributesFrom m isArrayed offset rest
      | false, some location =>
          let name := m.variableName v.id type
          let (format, size) := m.attributeShape type
          let some next := size.bind fun size => inWord? (offset + size)
            | throw (.attributeTooLarge name)
          pure (⟨name, location, offset, format⟩ :: (← attributesFrom m isArrayed next rest))

def inputs (m : Module) (stage : StageSet) : Except ReflectError (List Attribute) :=
  m.attributesFrom stage.hasArrayedInputs 0 (m.globalVariables.filter (·.storage = .input))

def outputs (m : Module) (stage : StageSet) : Except ReflectError (List Attribute) :=
  m.attributesFrom stage.hasArrayedOutputs 0 (m.globalVariables.filter (·.storage = .output))

def constantValue? (m : Module) (i : Instruction) : Option SpecValue :=
  match i.op, i.type.bind m.scalarKind?, i.operands with
  | .specConstantTrue, _, _ => some (.bool true)
  | .specConstantFalse, _, _ => some (.bool false)
  | _, some .int32, .literal w :: _ => some (.int32 w.toInt32)
  | _, some .uint32, .literal w :: _ => some (.uint32 w)
  | _, some .float32, .literal w :: _ => some (.float32 w)
  | _, some .int64, .wideLiteral w :: _ => some (.int64 w.toInt64)
  | _, some .uint64, .wideLiteral w :: _ => some (.uint64 w)
  | _, some .float64, .wideLiteral w :: _ => some (.float64 w)
  | _, _, _ => none

/-- The specialization constant that a global is, if it has a number as such. -/
def constant? (m : Module) (i : Instruction) : Except ReflectError (Option SpecConstant) := do
  let some id := i.result | return none
  let some number := m.decorationWord? id .specId | return none
  match i.op with
  | .specConstantTrue | .specConstantFalse | .specConstant =>
      match m.constantValue? i with
      | some value => pure (some ⟨number, m.nameOrNumber id, value⟩)
      | none => throw (.constantNotScalar (m.nameOrNumber id))
  | .specConstantComposite => throw (.constantNotScalar (m.nameOrNumber id))
  | _ => pure none

/-- The specialization constants of a stage, in order of declaration. -/
def constants (m : Module) : Except ReflectError (List SpecConstant) := do
  pure ((← m.globals.mapM m.constant?).filterMap id)

def reflection (m : Module) (c : StageContext) (stage : StageSet) :
    Except ReflectError StageReflection := do
  pure
    { stage
      usages := ← m.usages c stage
      pushConstant := ← m.pushConstant stage
      inputs := ← m.inputs stage
      outputs := ← m.outputs stage
      constants := ← m.constants }

end Spirv.Module

def StageReflection.ofBinary (c : StageContext) (stage : StageSet) (binary : List UInt32) :
    Except ReflectError StageReflection := do
  let m ← (Spirv.Module.ofWords binary).mapError .malformed
  m.reflection c stage

end ShaderPipeline

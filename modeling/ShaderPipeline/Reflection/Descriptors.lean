import ShaderPipeline.Reflection.Error

/-!
The usages of a stage: its descriptor variables with their slots, checked against the catalog.

A variable is a resource of the catalog when one of the resource groups that the stage uses declares its name;
then its set must be the place of the group among them, and its binding that of the resource.
-/

set_option autoImplicit false
set_option relaxedAutoImplicit false

namespace ShaderPipeline

open Spirv

/-- What a compiled stage is checked against: the catalog, the name of the shader, and the resource groups that
the stage uses, which are numbered as descriptor sets. -/
structure StageContext where
  catalog : Catalog
  shader : String
  groups : List String

namespace StageContext

/-- The resource that the variable at a slot stands for, if there is one; its slot must be the declared one. -/
def checkSlot (c : StageContext) (name : String) (set binding : Nat) :
    Except ReflectError (Option Resource) :=
  match c.catalog.findResource? c.groups name with
  | none => .ok none
  | some r =>
      let expected := (c.groups.idxOf? r.group).getD 0
      if expected = set ∧ r.binding = binding then .ok (some r)
      else .error (.slotMismatch r.key expected r.binding set binding)

end StageContext

namespace Spirv.Module

def imageKind (operands : List Operand) : Except TypeFault DescriptorKind :=
  match operands with
  | _ :: .symbol .dim dim :: _ :: _ :: _ :: .literal sampled :: _ =>
      match dim, sampled.toNat with
      | 6, _ => .ok .inputAttachment
      | 5, 2 => .ok .storageTexelBuffer
      | 5, _ => .ok .uniformTexelBuffer
      | _, 2 => .ok .storageImage
      | _, _ => .ok .sampledImage
  | _ => .error .malformedImage

/-- The descriptor kind of a variable of a storage class and a type, if variables of the class are
descriptors. -/
def descriptorKind (m : Module) (storage : StorageClass) (type : Id) :
    Except TypeFault (Option DescriptorKind) := do
  let some i := m.definition? type | throw .undefined
  match storage with
  | .uniformConstant =>
      match i.op with
      | .typeSampler => pure (some .sampler)
      | .typeSampledImage => pure (some .combinedImageSampler)
      | .typeImage => pure (some (← imageKind i.operands))
      | _ => throw .unsupportedOpaque
  | .uniform =>
      if i.op ≠ .typeStruct then throw .uniformNoBlock
      else if m.isDecorated type .bufferBlock then pure (some .storageBuffer)
      else pure (some .uniformBuffer)
  | .storageBuffer =>
      if i.op ≠ .typeStruct then throw .storageNoBlock else pure (some .storageBuffer)
  | .input | .output | .pushConstant => pure none

/-- Whether a structure has members and all of them have a decoration. -/
def allMembersDecorated (m : Module) (type : Id) (d : Decoration) : Bool :=
  match m.members? type with
  | some members =>
      !members.isEmpty && (List.range members.length).all (m.isMemberDecorated type · d)
  | none => false

/-- The access that decorations leave to a variable; none if they say nothing. -/
def decoratedAccess? (m : Module) (id type : Id) : Option Access :=
  let nonWritable := m.isDecorated id .nonWritable || m.allMembersDecorated type .nonWritable
  let nonReadable := m.isDecorated id .nonReadable || m.allMembersDecorated type .nonReadable
  match nonWritable, nonReadable with
  | false, false => none
  | true, false => some (Access.readWrite.without .write)
  | false, true => some (Access.readWrite.without .read)
  | true, true => some ((Access.readWrite.without .write).without .read)

/-- The access of a stage to a variable: its kind decides, else its decorations, else the memory qualifiers of
the resource, and else it reads and writes. -/
def access (m : Module) (c : StageContext) (id type : Id) (kind : DescriptorKind)
    (resource : Option Resource) : Access :=
  if kind.isReadOnly then .read
  else
    match m.decoratedAccess? id type with
    | some access => access
    | none =>
        let declared := (resource.bind fun r => c.catalog.resource? r.key).bind fun r =>
          Access.ofQualifiers? (r.qualifiersFor c.shader)
        declared.getD .readWrite

/-- The usage of a variable, given those before it; none if the variable is no descriptor. -/
def usage? (m : Module) (c : StageContext) (stage : StageSet) (earlier : List Usage)
    (v : Variable) : Except ReflectError (Option Usage) := do
  if ¬ [StorageClass.uniformConstant, .uniform, .storageBuffer].contains v.storage then
    return none
  let (type, count) := m.stripArrays v.target
  let name := m.variableName v.id type
  let some kind ← (m.descriptorKind v.storage type).mapError (.invalidType name)
    | return none
  let some set := m.decorationWord? v.id .descriptorSet | throw (.missingSlot name)
  let some binding := m.decorationWord? v.id .binding | throw (.missingSlot name)
  if let some first := earlier.find? (·.slot = (set, binding)) then
    throw (.sharedSlot set binding first.name name)
  let resource ← c.checkSlot name set binding
  pure (some
    { stages := stage
      name
      resource := resource.map Resource.key
      access := m.access c v.id type kind resource
      kind
      binding
      set
      count })

/-- The usages of some variables after those before them, in order of declaration. -/
def usagesFrom (m : Module) (c : StageContext) (stage : StageSet) :
    List Usage → List Variable → Except ReflectError (List Usage)
  | earlier, [] => .ok earlier
  | earlier, v :: rest => do
      let found ← m.usage? c stage earlier v
      usagesFrom m c stage (earlier ++ found.toList) rest

def usages (m : Module) (c : StageContext) (stage : StageSet) :
    Except ReflectError (List Usage) :=
  (m.usagesFrom c stage [] m.globalVariables).map Usage.sort

end Spirv.Module

end ShaderPipeline

import ShaderPipeline.Spirv.Family

/-!
Operations of SPIR-V modules: those that something is made of, and the others by their numbers.
-/

set_option autoImplicit false
set_option relaxedAutoImplicit false

namespace ShaderPipeline.Spirv

inductive Op where
  | nop | undef | source | name | memberName | string | line | extension | extInstImport | extInst
  | memoryModel | entryPoint | executionMode | capability | typeVoid | typeBool | typeInt | typeFloat
  | typeVector | typeMatrix | typeImage | typeSampler | typeSampledImage | typeArray
  | typeRuntimeArray | typeStruct | typePointer | typeFunction | constant | specConstantTrue
  | specConstantFalse | specConstant | specConstantComposite | specConstantOp | function
  | functionParameter | functionEnd | variableOp | load | store | decorate | memberDecorate
  | decorationGroup | groupDecorate | iAdd | label | ret | noLine | typeAccelerationStructure
  | other (code : Nat)
  deriving DecidableEq, Repr

namespace Op

/-- The operations that something is made of, by increasing code. -/
def all : List Op :=
  [nop, undef, source, name, memberName, string, line, extension, extInstImport, extInst, memoryModel,
    entryPoint, executionMode, capability, typeVoid, typeBool, typeInt, typeFloat, typeVector,
    typeMatrix, typeImage, typeSampler, typeSampledImage, typeArray, typeRuntimeArray, typeStruct,
    typePointer, typeFunction, constant, specConstantTrue, specConstantFalse, specConstant,
    specConstantComposite, specConstantOp, function, functionParameter, functionEnd, variableOp, load,
    store, decorate, memberDecorate, decorationGroup, groupDecorate, iAdd, label, ret, noLine,
    typeAccelerationStructure]

def code : Op → Nat
  | nop => 0
  | undef => 1
  | source => 3
  | name => 5
  | memberName => 6
  | string => 7
  | line => 8
  | extension => 10
  | extInstImport => 11
  | extInst => 12
  | memoryModel => 14
  | entryPoint => 15
  | executionMode => 16
  | capability => 17
  | typeVoid => 19
  | typeBool => 20
  | typeInt => 21
  | typeFloat => 22
  | typeVector => 23
  | typeMatrix => 24
  | typeImage => 25
  | typeSampler => 26
  | typeSampledImage => 27
  | typeArray => 28
  | typeRuntimeArray => 29
  | typeStruct => 30
  | typePointer => 32
  | typeFunction => 33
  | constant => 43
  | specConstantTrue => 48
  | specConstantFalse => 49
  | specConstant => 50
  | specConstantComposite => 51
  | specConstantOp => 52
  | function => 54
  | functionParameter => 55
  | functionEnd => 56
  | variableOp => 59
  | load => 61
  | store => 62
  | decorate => 71
  | memberDecorate => 72
  | decorationGroup => 73
  | groupDecorate => 74
  | iAdd => 128
  | label => 248
  | ret => 253
  | noLine => 317
  | typeAccelerationStructure => 5341
  | other code => code

def title : Op → String
  | nop => "Nop"
  | undef => "Undef"
  | source => "Source"
  | name => "Name"
  | memberName => "MemberName"
  | string => "String"
  | line => "Line"
  | extension => "Extension"
  | extInstImport => "ExtInstImport"
  | extInst => "ExtInst"
  | memoryModel => "MemoryModel"
  | entryPoint => "EntryPoint"
  | executionMode => "ExecutionMode"
  | capability => "Capability"
  | typeVoid => "TypeVoid"
  | typeBool => "TypeBool"
  | typeInt => "TypeInt"
  | typeFloat => "TypeFloat"
  | typeVector => "TypeVector"
  | typeMatrix => "TypeMatrix"
  | typeImage => "TypeImage"
  | typeSampler => "TypeSampler"
  | typeSampledImage => "TypeSampledImage"
  | typeArray => "TypeArray"
  | typeRuntimeArray => "TypeRuntimeArray"
  | typeStruct => "TypeStruct"
  | typePointer => "TypePointer"
  | typeFunction => "TypeFunction"
  | constant => "Constant"
  | specConstantTrue => "SpecConstantTrue"
  | specConstantFalse => "SpecConstantFalse"
  | specConstant => "SpecConstant"
  | specConstantComposite => "SpecConstantComposite"
  | specConstantOp => "SpecConstantOp"
  | function => "Function"
  | functionParameter => "FunctionParameter"
  | functionEnd => "FunctionEnd"
  | variableOp => "Variable"
  | load => "Load"
  | store => "Store"
  | decorate => "Decorate"
  | memberDecorate => "MemberDecorate"
  | decorationGroup => "DecorationGroup"
  | groupDecorate => "GroupDecorate"
  | iAdd => "IAdd"
  | label => "Label"
  | ret => "Return"
  | noLine => "NoLine"
  | typeAccelerationStructure => "TypeAccelerationStructureKHR"
  | other code => ((OpFamily.ofCode? code).bind (·.name? code)).getD ""

def ofCode? (n : Nat) : Option Op :=
  (all.find? (·.code == n)).or ((OpFamily.ofCode? n).map fun _ => other n)

end Op

end ShaderPipeline.Spirv

import ShaderPipeline.Spirv.Op

/-!
The grammar of instructions: which operands an operation takes, and where it belongs in a module.

Some named values, and some bits, take operands of their own.
-/

set_option autoImplicit false
set_option relaxedAutoImplicit false

namespace ShaderPipeline.Spirv

def literalDecorations : List Nat :=
  [1, 6, 7, 29, 30, 31, 32, 33, 34, 35, 36, 37, 43, 44, 45, 5256, 5599, 5625, 5628, 5827, 5828,
    5829, 5832, 5835, 5836, 5883, 5884, 5900, 5902, 5917, 5918, 5919, 5921, 5944, 6170, 6172, 6177,
    6178, 6179, 6181, 6182, 6191]

def decorationArguments (decoration : Nat) : List OperandKind :=
  if literalDecorations.contains decoration then [.literal]
  else if [27, 46, 47, 5019, 5020, 5634, 5914, 5915].contains decoration then [.id]
  else if [5091, 5607, 5635, 5636, 5826].contains decoration then [.text]
  else
    match decoration with
    | 11 => [.enumeration .builtIn]
    | 38 => [.enumeration .parameterAttribute]
    | 39 => [.enumeration .roundingMode]
    | 40 => [.mask .fastMath]
    | 41 => [.text, .enumeration .linkageType]
    | 5822 => [.literal, .enumeration .roundingMode]
    | 5823 => [.literal, .enumeration .denormMode]
    | 5834 => [.text, .text]
    | 5909 => [.literal, .literal]
    | 6080 => [.literal, .enumeration .operationMode]
    | 6173 => [.literal, .literal, .literal]
    | 6180 => [.enumeration .accessQualifier]
    | 6188 => [.enumeration .hostAccess, .text]
    | 6190 => [.enumeration .initializationMode]
    | 6442 => [.literal, .enumeration .loadCache]
    | 6443 => [.literal, .enumeration .storeCache]
    | _ => []

def literalModes : List Nat :=
  [0, 26, 30, 35, 36, 4459, 4460, 4461, 4462, 4463, 5270, 5618, 5620, 5621, 5622, 5623, 5894, 5896,
    5903, 6154, 6160, 6417]

def executionModeArguments (mode : Nat) : List OperandKind :=
  if literalModes.contains mode then [.literal]
  else if [37, 5071, 5073].contains mode then [.id]
  else if [17, 18, 5893].contains mode then [.literal, .literal, .literal]
  else if [38, 39, 5072, 5077].contains mode then [.id, .id, .id]
  else []

def EnumKind.arguments : EnumKind → Nat → List OperandKind
  | decoration, value => decorationArguments value
  | executionMode, value => executionModeArguments value
  | _, _ => []

def MaskKind.arguments : MaskKind → Nat → List OperandKind
  | memoryAccess, value =>
      ([2].filter (holds value)).map (fun _ => .literal)
        ++ ([8, 16, 65536, 131072].filter (holds value)).map fun _ => .id
  | imageOperands, value =>
      ([1, 2, 4, 8, 16, 32, 64, 128, 256, 512, 65536].filter (holds value)).flatMap fun bit =>
        if bit = 4 then [.id, .id] else [.id]
  | loopControl, value => ([8, 16, 32, 64, 128, 256].filter (holds value)).map fun _ => .literal
  | functionControl, _ | fastMath, _ | selectionControl, _ => []

def Op.hasType : Op → Bool
  | undef | extInst | constant | specConstantTrue | specConstantFalse | specConstant
  | specConstantComposite | specConstantOp | function | functionParameter | variableOp | load
  | iAdd => true
  | other code => (OpFamily.ofCode? code).any (·.hasType)
  | _ => false

def Op.hasResult : Op → Bool
  | string | extInstImport | typeVoid | typeBool | typeInt | typeFloat | typeVector | typeMatrix
  | typeImage | typeSampler | typeSampledImage | typeArray | typeRuntimeArray | typeStruct
  | typePointer | typeFunction | decorationGroup | label | typeAccelerationStructure => true
  | other code => (OpFamily.ofCode? code).any (·.hasResult)
  | op => op.hasType

/-- The operands of an operation after its result type and its result. -/
def Op.operands : Op → List (OperandKind × Quantity)
  | nop | undef | typeVoid | typeBool | typeSampler | specConstantTrue | specConstantFalse
  | functionParameter | functionEnd | decorationGroup | label | ret | noLine
  | typeAccelerationStructure => []
  | source =>
      [(.enumeration .sourceLanguage, .one), (.literal, .one), (.id, .optional), (.text, .optional)]
  | name => [(.id, .one), (.text, .one)]
  | memberName => [(.id, .one), (.literal, .one), (.text, .one)]
  | string | extension | extInstImport => [(.text, .one)]
  | line => [(.id, .one), (.literal, .one), (.literal, .one)]
  | extInst => [(.id, .one), (.literal, .one), (.id, .many)]
  | memoryModel => [(.enumeration .addressingModel, .one), (.enumeration .memoryModel, .one)]
  | entryPoint =>
      [(.enumeration .executionModel, .one), (.id, .one), (.text, .one), (.id, .many)]
  | executionMode => [(.id, .one), (.enumeration .executionMode, .one)]
  | capability => [(.enumeration .capability, .one)]
  | typeInt => [(.literal, .one), (.literal, .one)]
  | typeFloat => [(.literal, .one)]
  | typeVector | typeMatrix => [(.id, .one), (.literal, .one)]
  | typeImage =>
      [(.id, .one), (.enumeration .dim, .one), (.literal, .one), (.literal, .one), (.literal, .one),
        (.literal, .one), (.enumeration .imageFormat, .one),
        (.enumeration .accessQualifier, .optional)]
  | typeSampledImage | typeRuntimeArray => [(.id, .one)]
  | typeArray | iAdd => [(.id, .one), (.id, .one)]
  | typeStruct | specConstantComposite => [(.id, .many)]
  | typePointer => [(.enumeration .storageClass, .one), (.id, .one)]
  | typeFunction | groupDecorate => [(.id, .one), (.id, .many)]
  | constant | specConstant => [(.number, .one)]
  | specConstantOp => [(.operation, .one)]
  | function => [(.mask .functionControl, .one), (.id, .one)]
  | variableOp => [(.enumeration .storageClass, .one), (.id, .optional)]
  | load => [(.id, .one), (.mask .memoryAccess, .optional)]
  | store => [(.id, .one), (.id, .one), (.mask .memoryAccess, .optional)]
  | decorate => [(.id, .one), (.enumeration .decoration, .one)]
  | memberDecorate => [(.id, .one), (.literal, .one), (.enumeration .decoration, .one)]
  | other code => ((OpFamily.ofCode? code).map (·.operands)).getD []

def Op.home : Op → Section
  | capability => .capabilities
  | extension => .extensions
  | extInstImport => .imports
  | memoryModel => .memoryModel
  | entryPoint => .entryPoints
  | executionMode => .executionModes
  | string | source => .sources
  | name | memberName => .names
  | decorate | memberDecorate | decorationGroup | groupDecorate => .annotations
  | typeVoid | typeBool | typeInt | typeFloat | typeVector | typeMatrix | typeImage | typeSampler
  | typeSampledImage | typeArray | typeRuntimeArray | typeStruct | typePointer | typeFunction
  | constant | specConstantTrue | specConstantFalse | specConstant | specConstantComposite
  | specConstantOp | typeAccelerationStructure => .globals
  | variableOp | undef => .globalOrBlock
  | line | noLine => .blockOrGlobal
  | function => .functionStart
  | functionParameter => .functionParameter
  | functionEnd => .functionEnd
  | label => .blockStart
  | ret => .blockEnd
  | nop | extInst | load | store | iAdd => .block
  | other code => ((OpFamily.ofCode? code).map (·.home)).getD .block

end ShaderPipeline.Spirv

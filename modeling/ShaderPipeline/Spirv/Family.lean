import ShaderPipeline.Spirv.Vocabulary

/-!
Shapes of operations, and the operations of shaders that are read and kept without anything being made of them.

An operand is an id, a literal word, a text, a named value, or a set of named bits.  The operations here come in
families of one shape each.  Those of kernels and most of those that vendors add are not among them.
-/

set_option autoImplicit false
set_option relaxedAutoImplicit false

namespace ShaderPipeline.Spirv

inductive OperandKind where
  | id
  | literal
  | text
  | enumeration (kind : EnumKind)
  | mask (kind : MaskKind)
  /-- A number whose width depends on the type of the result. -/
  | number
  /-- An operation together with its operands. -/
  | operation
  /-- A literal word and the id that goes with it. -/
  | literalThenId
  /-- An id and the literal word that goes with it. -/
  | idThenLiteral
  /-- Two ids that go together. -/
  | twoIds
  deriving DecidableEq, Repr

inductive Quantity where
  | one
  | optional
  | many
  deriving DecidableEq, Repr

/-- The sections of a module, and the parts of functions. -/
inductive Section where
  | capabilities | extensions | imports | memoryModel | entryPoints | executionModes | sources
  | names | processes | annotations | globals
  /-- A global outside functions, part of a block inside them. -/
  | globalOrBlock
  /-- Part of a block that is open, else a global. -/
  | blockOrGlobal
  | functionStart | functionParameter | functionEnd | blockStart | blockEnd | block
  deriving DecidableEq, Repr

/-- Operations of one shape, by number and name. -/
structure OpFamily where
  hasType : Bool
  hasResult : Bool
  operands : List (OperandKind × Quantity)
  home : Section
  members : List (Nat × String)

namespace OpFamily

def value (operands : List (OperandKind × Quantity)) (members : List (Nat × String)) : OpFamily :=
  ⟨true, true, operands, .block, members⟩

def effect (operands : List (OperandKind × Quantity)) (members : List (Nat × String)) : OpFamily :=
  ⟨false, false, operands, .block, members⟩

def terminator (operands : List (OperandKind × Quantity)) (members : List (Nat × String)) : OpFamily :=
  ⟨false, false, operands, .blockEnd, members⟩

def ids (count : Nat) : List (OperandKind × Quantity) :=
  List.replicate count (.id, .one)

def globals : List OpFamily :=
  [⟨false, true, [(.text, .one)], .globals, [(31, "TypeOpaque")]⟩,
    ⟨false, false, [(.id, .one), (.enumeration .storageClass, .one)], .globals, [(39, "TypeForwardPointer")]⟩,
    ⟨false, true, [], .globals, [(4472, "TypeRayQueryKHR")]⟩,
    ⟨true, true, [], .globals, [(41, "ConstantTrue"), (42, "ConstantFalse"), (46, "ConstantNull")]⟩,
    ⟨true, true, [(.id, .many)], .globals, [(44, "ConstantComposite")]⟩]

/-- What modules say of their sources, and decorations of further forms. -/
def notes : List OpFamily :=
  [⟨false, false, [(.text, .one)], .sources, [(2, "SourceContinued"), (4, "SourceExtension")]⟩,
    ⟨false, false, [(.text, .one)], .processes, [(330, "ModuleProcessed")]⟩,
    ⟨false, false, [(.id, .one), (.idThenLiteral, .many)], .annotations, [(75, "GroupMemberDecorate")]⟩,
    ⟨false, false, [(.id, .one), (.enumeration .decoration, .one)], .annotations,
      [(332, "DecorateId"), (5632, "DecorateString")]⟩,
    ⟨false, false, [(.id, .one), (.literal, .one), (.enumeration .decoration, .one)], .annotations,
      [(5633, "MemberDecorateString")]⟩]

def memory : List OpFamily :=
  [value [(.id, .one), (.id, .many)]
      [(57, "FunctionCall"), (65, "AccessChain"), (66, "InBoundsAccessChain")],
    value [(.id, .one), (.id, .one), (.id, .many)] [(67, "PtrAccessChain"), (70, "InBoundsPtrAccessChain")],
    value [(.id, .one), (.literal, .one)] [(68, "ArrayLength")],
    value [(.id, .many)] [(80, "CompositeConstruct")],
    value [(.id, .one), (.literal, .many)] [(81, "CompositeExtract")],
    value [(.id, .one), (.id, .one), (.literal, .many)] [(79, "VectorShuffle"), (82, "CompositeInsert")],
    value (ids 1) [(83, "CopyObject"), (84, "Transpose"), (400, "CopyLogical")],
    value (ids 2)
      [(77, "VectorExtractDynamic"), (86, "SampledImage"), (401, "PtrEqual"), (402, "PtrNotEqual"), (403, "PtrDiff")],
    value (ids 3) [(60, "ImageTexelPointer"), (78, "VectorInsertDynamic")],
    effect [(.id, .one), (.id, .one), (.mask .memoryAccess, .optional), (.mask .memoryAccess, .optional)]
      [(63, "CopyMemory")],
    effect
      [(.id, .one), (.id, .one), (.id, .one), (.mask .memoryAccess, .optional), (.mask .memoryAccess, .optional)]
      [(64, "CopyMemorySized")]]

def images : List OpFamily :=
  [value (ids 2 ++ [(.mask .imageOperands, .optional)])
      [(87, "ImageSampleImplicitLod"), (91, "ImageSampleProjImplicitLod"), (95, "ImageFetch"), (98, "ImageRead"),
        (305, "ImageSparseSampleImplicitLod"), (309, "ImageSparseSampleProjImplicitLod"),
        (313, "ImageSparseFetch"), (320, "ImageSparseRead")],
    value (ids 2 ++ [(.mask .imageOperands, .one)])
      [(88, "ImageSampleExplicitLod"), (92, "ImageSampleProjExplicitLod"), (306, "ImageSparseSampleExplicitLod"),
        (310, "ImageSparseSampleProjExplicitLod")],
    value (ids 3 ++ [(.mask .imageOperands, .optional)])
      [(89, "ImageSampleDrefImplicitLod"), (93, "ImageSampleProjDrefImplicitLod"), (96, "ImageGather"),
        (97, "ImageDrefGather"), (307, "ImageSparseSampleDrefImplicitLod"),
        (311, "ImageSparseSampleProjDrefImplicitLod"), (314, "ImageSparseGather"), (315, "ImageSparseDrefGather")],
    value (ids 3 ++ [(.mask .imageOperands, .one)])
      [(90, "ImageSampleDrefExplicitLod"), (94, "ImageSampleProjDrefExplicitLod"),
        (308, "ImageSparseSampleDrefExplicitLod"), (312, "ImageSparseSampleProjDrefExplicitLod")],
    effect (ids 3 ++ [(.mask .imageOperands, .optional)]) [(99, "ImageWrite")],
    value (ids 1)
      [(100, "Image"), (101, "ImageQueryFormat"), (102, "ImageQueryOrder"), (104, "ImageQuerySize"),
        (106, "ImageQueryLevels"), (107, "ImageQuerySamples"), (316, "ImageSparseTexelsResident")],
    value (ids 2) [(103, "ImageQuerySizeLod"), (105, "ImageQueryLod")]]

def arithmetic : List OpFamily :=
  [value (ids 1)
      [(109, "ConvertFToU"), (110, "ConvertFToS"), (111, "ConvertSToF"), (112, "ConvertUToF"), (113, "UConvert"),
        (114, "SConvert"), (115, "FConvert"), (116, "QuantizeToF16"), (117, "ConvertPtrToU"),
        (120, "ConvertUToPtr"), (124, "Bitcast"), (126, "SNegate"), (127, "FNegate"), (154, "Any"), (155, "All"),
        (156, "IsNan"), (157, "IsInf"), (168, "LogicalNot"), (200, "Not"), (204, "BitReverse"), (205, "BitCount"),
        (207, "DPdx"), (208, "DPdy"), (209, "Fwidth"), (210, "DPdxFine"), (211, "DPdyFine"), (212, "FwidthFine"),
        (213, "DPdxCoarse"), (214, "DPdyCoarse"), (215, "FwidthCoarse")],
    value (ids 2)
      [(129, "FAdd"), (130, "ISub"), (131, "FSub"), (132, "IMul"), (133, "FMul"), (134, "UDiv"), (135, "SDiv"),
        (136, "FDiv"), (137, "UMod"), (138, "SRem"), (139, "SMod"), (140, "FRem"), (141, "FMod"),
        (142, "VectorTimesScalar"), (143, "MatrixTimesScalar"), (144, "VectorTimesMatrix"),
        (145, "MatrixTimesVector"), (146, "MatrixTimesMatrix"), (147, "OuterProduct"), (148, "Dot"),
        (149, "IAddCarry"), (150, "ISubBorrow"), (151, "UMulExtended"), (152, "SMulExtended"),
        (164, "LogicalEqual"), (165, "LogicalNotEqual"), (166, "LogicalOr"), (167, "LogicalAnd"), (170, "IEqual"),
        (171, "INotEqual"), (172, "UGreaterThan"), (173, "SGreaterThan"), (174, "UGreaterThanEqual"),
        (175, "SGreaterThanEqual"), (176, "ULessThan"), (177, "SLessThan"), (178, "ULessThanEqual"),
        (179, "SLessThanEqual"), (180, "FOrdEqual"), (181, "FUnordEqual"), (182, "FOrdNotEqual"),
        (183, "FUnordNotEqual"), (184, "FOrdLessThan"), (185, "FUnordLessThan"), (186, "FOrdGreaterThan"),
        (187, "FUnordGreaterThan"), (188, "FOrdLessThanEqual"), (189, "FUnordLessThanEqual"),
        (190, "FOrdGreaterThanEqual"), (191, "FUnordGreaterThanEqual"), (194, "ShiftRightLogical"),
        (195, "ShiftRightArithmetic"), (196, "ShiftLeftLogical"), (197, "BitwiseOr"), (198, "BitwiseXor"),
        (199, "BitwiseAnd")],
    value (ids 3) [(169, "Select"), (202, "BitFieldSExtract"), (203, "BitFieldUExtract")],
    value (ids 4) [(201, "BitFieldInsert")]]

/-- Primitives, barriers, atomic accesses and what invocations do together. -/
def invocations : List OpFamily :=
  [effect [] [(218, "EmitVertex"), (219, "EndPrimitive"), (5380, "DemoteToHelperInvocation")],
    effect (ids 1) [(220, "EmitStreamVertex"), (221, "EndStreamPrimitive")],
    effect (ids 2) [(225, "MemoryBarrier"), (5295, "SetMeshOutputsEXT")],
    effect (ids 3) [(224, "ControlBarrier")],
    effect (ids 4) [(228, "AtomicStore")],
    value [] [(5381, "IsHelperInvocationEXT")],
    value (ids 1)
      [(333, "GroupNonUniformElect"), (4421, "SubgroupBallotKHR"), (4422, "SubgroupFirstInvocationKHR"),
        (4428, "SubgroupAllKHR"), (4429, "SubgroupAnyKHR"), (4430, "SubgroupAllEqualKHR")],
    value (ids 2)
      [(334, "GroupNonUniformAll"), (335, "GroupNonUniformAny"), (336, "GroupNonUniformAllEqual"),
        (338, "GroupNonUniformBroadcastFirst"), (339, "GroupNonUniformBallot"),
        (340, "GroupNonUniformInverseBallot"), (343, "GroupNonUniformBallotFindLSB"),
        (344, "GroupNonUniformBallotFindMSB"), (4432, "SubgroupReadInvocationKHR")],
    value (ids 3)
      [(227, "AtomicLoad"), (232, "AtomicIIncrement"), (233, "AtomicIDecrement"), (337, "GroupNonUniformBroadcast"),
        (341, "GroupNonUniformBallotBitExtract"), (345, "GroupNonUniformShuffle"),
        (346, "GroupNonUniformShuffleXor"), (347, "GroupNonUniformShuffleUp"), (348, "GroupNonUniformShuffleDown"),
        (365, "GroupNonUniformQuadBroadcast"), (366, "GroupNonUniformQuadSwap")],
    value (ids 4)
      [(229, "AtomicExchange"), (234, "AtomicIAdd"), (235, "AtomicISub"), (236, "AtomicSMin"), (237, "AtomicUMin"),
        (238, "AtomicSMax"), (239, "AtomicUMax"), (240, "AtomicAnd"), (241, "AtomicOr"), (242, "AtomicXor"),
        (6035, "AtomicFAddEXT")],
    value (ids 6) [(230, "AtomicCompareExchange")],
    value [(.id, .one), (.enumeration .groupOperation, .one), (.id, .one)]
      [(342, "GroupNonUniformBallotBitCount")],
    value [(.id, .one), (.enumeration .groupOperation, .one), (.id, .one), (.id, .optional)]
      [(349, "GroupNonUniformIAdd"), (350, "GroupNonUniformFAdd"), (351, "GroupNonUniformIMul"),
        (352, "GroupNonUniformFMul"), (353, "GroupNonUniformSMin"), (354, "GroupNonUniformUMin"),
        (355, "GroupNonUniformFMin"), (356, "GroupNonUniformSMax"), (357, "GroupNonUniformUMax"),
        (358, "GroupNonUniformFMax"), (359, "GroupNonUniformBitwiseAnd"), (360, "GroupNonUniformBitwiseOr"),
        (361, "GroupNonUniformBitwiseXor"), (362, "GroupNonUniformLogicalAnd"),
        (363, "GroupNonUniformLogicalOr"), (364, "GroupNonUniformLogicalXor")]]

def control : List OpFamily :=
  [value [(.twoIds, .many)] [(245, "Phi")],
    effect [(.id, .one), (.id, .one), (.mask .loopControl, .one)] [(246, "LoopMerge")],
    effect [(.id, .one), (.mask .selectionControl, .one)] [(247, "SelectionMerge")],
    terminator (ids 1) [(249, "Branch"), (254, "ReturnValue")],
    terminator (ids 3 ++ [(.literal, .many)]) [(250, "BranchConditional")],
    terminator [(.id, .one), (.id, .one), (.literalThenId, .many)] [(251, "Switch")],
    terminator [] [(252, "Kill"), (255, "Unreachable"), (4416, "TerminateInvocation")]]

def all : List OpFamily :=
  globals ++ notes ++ memory ++ images ++ arithmetic ++ invocations ++ control

def name? (f : OpFamily) (code : Nat) : Option String :=
  (f.members.find? (·.1 == code)).map (·.2)

def ofCode? (code : Nat) : Option OpFamily :=
  all.find? fun f => (f.name? code).isSome

end OpFamily

end ShaderPipeline.Spirv

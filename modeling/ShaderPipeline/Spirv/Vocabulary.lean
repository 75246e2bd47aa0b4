/-!
The named values of operands: families of values of which one is chosen, and families of bits that are set
together.
-/

set_option autoImplicit false
set_option relaxedAutoImplicit false

namespace ShaderPipeline.Spirv

inductive EnumKind where
  | capability | addressingModel | memoryModel | executionModel | executionMode | sourceLanguage
  | storageClass | dim | imageFormat | accessQualifier | decoration | builtIn | parameterAttribute
  | roundingMode | linkageType | denormMode | operationMode | hostAccess | initializationMode
  | loadCache | storeCache | groupOperation
  deriving DecidableEq, Repr

namespace EnumKind

def title : EnumKind → String
  | capability => "Capability"
  | addressingModel => "AddressingModel"
  | memoryModel => "MemoryModel"
  | executionModel => "ExecutionModel"
  | executionMode => "ExecutionMode"
  | sourceLanguage => "SourceLanguage"
  | storageClass => "StorageClass"
  | dim => "Dim"
  | imageFormat => "ImageFormat"
  | accessQualifier => "AccessQualifier"
  | decoration => "Decoration"
  | builtIn => "BuiltIn"
  | parameterAttribute => "FunctionParameterAttribute"
  | roundingMode => "FPRoundingMode"
  | linkageType => "LinkageType"
  | denormMode => "FPDenormMode"
  | operationMode => "FPOperationMode"
  | hostAccess => "HostAccessQualifier"
  | initializationMode => "InitializationModeQualifier"
  | loadCache => "LoadCacheControl"
  | storeCache => "StoreCacheControl"
  | groupOperation => "GroupOperation"

/-- The values of a family with their names.  A value that has several names goes by the one it was given
first. -/
def values : EnumKind → List (Nat × String)
  | capability =>
      [(0, "Matrix"), (1, "Shader"), (2, "Geometry"), (3, "Tessellation"), (4, "Addresses"),
        (5, "Linkage"), (6, "Kernel"), (7, "Vector16"), (8, "Float16Buffer"), (9, "Float16"),
        (10, "Float64"), (11, "Int64"), (12, "Int64Atomics"), (13, "ImageBasic"),
        (14, "ImageReadWrite"), (15, "ImageMipmap"), (17, "Pipes"), (18, "Groups"),
        (19, "DeviceEnqueue"), (20, "LiteralSampler"), (21, "AtomicStorage"), (22, "Int16"),
        (23, "TessellationPointSize"), (24, "GeometryPointSize"), (25, "ImageGatherExtended"),
        (27, "StorageImageMultisample"), (28, "UniformBufferArrayDynamicIndexing"),
        (29, "SampledImageArrayDynamicIndexing"), (30, "StorageBufferArrayDynamicIndexing"),
        (31, "StorageImageArrayDynamicIndexing"), (32, "ClipDistance"), (33, "CullDistance"),
        (34, "ImageCubeArray"), (35, "SampleRateShading"), (36, "ImageRect"), (37, "SampledRect"),
        (38, "GenericPointer"), (39, "Int8"), (40, "InputAttachment"), (41, "SparseResidency"),
        (42, "MinLod"), (43, "Sampled1D"), (44, "Image1D"), (45, "SampledCubeArray"),
        (46, "SampledBuffer"), (47, "ImageBuffer"), (48, "ImageMSArray"),
        (49, "StorageImageExtendedFormats"), (50, "ImageQuery"), (51, "DerivativeControl"),
        (52, "InterpolationFunction"), (53, "TransformFeedback"), (54, "GeometryStreams"),
        (55, "StorageImageReadWithoutFormat"), (56, "StorageImageWriteWithoutFormat"),
        (57, "MultiViewport"), (58, "SubgroupDispatch"), (59, "NamedBarrier"), (60, "PipeStorage"),
        (61, "GroupNonUniform"), (62, "GroupNonUniformVote"), (63, "GroupNonUniformArithmetic"),
        (64, "GroupNonUniformBallot"), (65, "GroupNonUniformShuffle"),
        (66, "GroupNonUniformShuffleRelative"), (67, "GroupNonUniformClustered"),
        (68, "GroupNonUniformQuad"), (69, "ShaderLayer"), (70, "ShaderViewportIndex"),
        (71, "UniformDecoration"), (4165, "CoreBuiltinsARM"),
        (4166, "TileImageColorReadAccessEXT"), (4167, "TileImageDepthReadAccessEXT"),
        (4168, "TileImageStencilReadAccessEXT"), (4422, "FragmentShadingRateKHR"),
        (4423, "SubgroupBallotKHR"), (4427, "DrawParameters"),
        (4428, "WorkgroupMemoryExplicitLayoutKHR"),
        (4429, "WorkgroupMemoryExplicitLayout8BitAccessKHR"),
        (4430, "WorkgroupMemoryExplicitLayout16BitAccessKHR"), (4431, "SubgroupVoteKHR"),
        (4433, "StorageBuffer16BitAccess"), (4434, "UniformAndStorageBuffer16BitAccess"),
        (4435, "StoragePushConstant16"), (4436, "StorageInputOutput16"), (4437, "DeviceGroup"),
        (4439, "MultiView"), (4441, "VariablePointersStorageBuffer"), (4442, "VariablePointers"),
        (4445, "AtomicStorageOps"), (4447, "SampleMaskPostDepthCoverage"),
        (4448, "StorageBuffer8BitAccess"), (4449, "UniformAndStorageBuffer8BitAccess"),
        (4450, "StoragePushConstant8"), (4464, "DenormPreserve"), (4465, "DenormFlushToZero"),
        (4466, "SignedZeroInfNanPreserve"), (4467, "RoundingModeRTE"), (4468, "RoundingModeRTZ"),
        (4471, "RayQueryProvisionalKHR"), (4472, "RayQueryKHR"),
        (4478, "RayTraversalPrimitiveCullingKHR"), (4479, "RayTracingKHR"),
        (4484, "TextureSampleWeightedQCOM"), (4485, "TextureBoxFilterQCOM"),
        (4486, "TextureBlockMatchQCOM"), (5008, "Float16ImageAMD"),
        (5009, "ImageGatherBiasLodAMD"), (5010, "FragmentMaskAMD"), (5013, "StencilExportEXT"),
        (5015, "ImageReadWriteLodAMD"), (5016, "Int64ImageEXT"), (5055, "ShaderClockKHR"),
        (5067, "ShaderEnqueueAMDX"), (5249, "SampleMaskOverrideCoverageNV"),
        (5251, "GeometryShaderPassthroughNV"), (5254, "ShaderViewportIndexLayerEXT"),
        (5255, "ShaderViewportMaskNV"), (5259, "ShaderStereoViewNV"),
        (5260, "PerViewAttributesNV"), (5265, "FragmentFullyCoveredEXT"), (5266, "MeshShadingNV"),
        (5282, "ImageFootprintNV"), (5283, "MeshShadingEXT"), (5284, "FragmentBarycentricKHR"),
        (5288, "ComputeDerivativeGroupQuadsNV"), (5291, "FragmentDensityEXT"),
        (5297, "GroupNonUniformPartitionedNV"), (5301, "ShaderNonUniform"),
        (5302, "RuntimeDescriptorArray"), (5303, "InputAttachmentArrayDynamicIndexing"),
        (5304, "UniformTexelBufferArrayDynamicIndexing"),
        (5305, "StorageTexelBufferArrayDynamicIndexing"),
        (5306, "UniformBufferArrayNonUniformIndexing"),
        (5307, "SampledImageArrayNonUniformIndexing"),
        (5308, "StorageBufferArrayNonUniformIndexing"),
        (5309, "StorageImageArrayNonUniformIndexing"),
        (5310, "InputAttachmentArrayNonUniformIndexing"),
        (5311, "UniformTexelBufferArrayNonUniformIndexing"),
        (5312, "StorageTexelBufferArrayNonUniformIndexing"), (5336, "RayTracingPositionFetchKHR"),
        (5340, "RayTracingNV"), (5341, "RayTracingMotionBlurNV"), (5345, "VulkanMemoryModel"),
        (5346, "VulkanMemoryModelDeviceScope"), (5347, "PhysicalStorageBufferAddresses"),
        (5350, "ComputeDerivativeGroupLinearNV"), (5353, "RayTracingProvisionalKHR"),
        (5357, "CooperativeMatrixNV"), (5363, "FragmentShaderSampleInterlockEXT"),
        (5372, "FragmentShaderShadingRateInterlockEXT"), (5373, "ShaderSMBuiltinsNV"),
        (5378, "FragmentShaderPixelInterlockEXT"), (5379, "DemoteToHelperInvocation"),
        (5380, "DisplacementMicromapNV"), (5381, "RayTracingOpacityMicromapEXT"),
        (5383, "ShaderInvocationReorderNV"), (5390, "BindlessTextureNV"),
        (5391, "RayQueryPositionFetchKHR"), (5409, "RayTracingDisplacementMicromapNV"),
        (5568, "SubgroupShuffleINTEL"), (5569, "SubgroupBufferBlockIOINTEL"),
        (5570, "SubgroupImageBlockIOINTEL"), (5579, "SubgroupImageMediaBlockIOINTEL"),
        (5582, "RoundToInfinityINTEL"), (5583, "FloatingPointModeINTEL"),
        (5584, "IntegerFunctions2INTEL"), (5603, "FunctionPointersINTEL"),
        (5604, "IndirectReferencesINTEL"), (5606, "AsmINTEL"), (5612, "AtomicFloat32MinMaxEXT"),
        (5613, "AtomicFloat64MinMaxEXT"), (5616, "AtomicFloat16MinMaxEXT"),
        (5617, "VectorComputeINTEL"), (5619, "VectorAnyINTEL"), (5629, "ExpectAssumeKHR"),
        (5696, "SubgroupAvcMotionEstimationINTEL"),
        (5697, "SubgroupAvcMotionEstimationIntraINTEL"),
        (5698, "SubgroupAvcMotionEstimationChromaINTEL"), (5817, "VariableLengthArrayINTEL"),
        (5821, "FunctionFloatControlINTEL"), (5824, "FPGAMemoryAttributesINTEL"),
        (5837, "FPFastMathModeINTEL"), (5844, "ArbitraryPrecisionIntegersINTEL"),
        (5845, "ArbitraryPrecisionFloatingPointINTEL"), (5886, "UnstructuredLoopControlsINTEL"),
        (5888, "FPGALoopControlsINTEL"), (5892, "KernelAttributesINTEL"),
        (5897, "FPGAKernelAttributesINTEL"), (5898, "FPGAMemoryAccessesINTEL"),
        (5904, "FPGAClusterAttributesINTEL"), (5906, "LoopFuseINTEL"),
        (5908, "FPGADSPControlINTEL"), (5910, "MemoryAccessAliasingINTEL"),
        (5916, "FPGAInvocationPipeliningAttributesINTEL"), (5920, "FPGABufferLocationINTEL"),
        (5922, "ArbitraryPrecisionFixedPointINTEL"), (5935, "USMStorageClassesINTEL"),
        (5939, "RuntimeAlignedAttributeINTEL"), (5943, "IOPipesINTEL"),
        (5945, "BlockingPipesINTEL"), (5948, "FPGARegINTEL"), (6016, "DotProductInputAll"),
        (6017, "DotProductInput4x8Bit"), (6018, "DotProductInput4x8BitPacked"),
        (6019, "DotProduct"), (6020, "RayCullMaskKHR"), (6022, "CooperativeMatrixKHR"),
        (6025, "BitInstructions"), (6026, "GroupNonUniformRotateKHR"),
        (6033, "AtomicFloat32AddEXT"), (6034, "AtomicFloat64AddEXT"),
        (6089, "LongConstantCompositeINTEL"), (6094, "OptNoneINTEL"),
        (6095, "AtomicFloat16AddEXT"), (6114, "DebugInfoModuleINTEL"),
        (6115, "BFloat16ConversionINTEL"), (6141, "SplitBarrierINTEL"),
        (6150, "FPGAClusterAttributesV2INTEL"), (6161, "FPGAKernelAttributesv2INTEL"),
        (6169, "FPMaxErrorINTEL"), (6171, "FPGALatencyControlINTEL"),
        (6174, "FPGAArgumentInterfacesINTEL"), (6187, "GlobalVariableHostAccessINTEL"),
        (6189, "GlobalVariableFPGADecorationsINTEL"), (6400, "GroupUniformArithmeticKHR"),
        (6427, "MaskedGatherScatterINTEL"), (6441, "CacheControlsINTEL")]
  | addressingModel =>
      [(0, "Logical"), (1, "Physical32"), (2, "Physical64"), (5348, "PhysicalStorageBuffer64")]
  | memoryModel =>
      [(0, "Simple"), (1, "GLSL450"), (2, "OpenCL"), (3, "Vulkan")]
  | executionModel =>
      [(0, "Vertex"), (1, "TessellationControl"), (2, "TessellationEvaluation"), (3, "Geometry"),
        (4, "Fragment"), (5, "GLCompute"), (6, "Kernel"), (5267, "TaskNV"), (5268, "MeshNV"),
        (5313, "RayGenerationNV"), (5314, "IntersectionNV"), (5315, "AnyHitNV"),
        (5316, "ClosestHitNV"), (5317, "MissNV"), (5318, "CallableNV"), (5364, "TaskEXT"),
        (5365, "MeshEXT")]
  | executionMode =>
      [(0, "Invocations"), (1, "SpacingEqual"), (2, "SpacingFractionalEven"),
        (3, "SpacingFractionalOdd"), (4, "VertexOrderCw"), (5, "VertexOrderCcw"),
        (6, "PixelCenterInteger"), (7, "OriginUpperLeft"), (8, "OriginLowerLeft"),
        (9, "EarlyFragmentTests"), (10, "PointMode"), (11, "Xfb"), (12, "DepthReplacing"),
        (14, "DepthGreater"), (15, "DepthLess"), (16, "DepthUnchanged"), (17, "LocalSize"),
        (18, "LocalSizeHint"), (19, "InputPoints"), (20, "InputLines"),
        (21, "InputLinesAdjacency"), (22, "Triangles"), (23, "InputTrianglesAdjacency"),
        (24, "Quads"), (25, "Isolines"), (26, "OutputVertices"), (27, "OutputPoints"),
        (28, "OutputLineStrip"), (29, "OutputTriangleStrip"), (30, "VecTypeHint"),
        (31, "ContractionOff"), (33, "Initializer"), (34, "Finalizer"), (35, "SubgroupSize"),
        (36, "SubgroupsPerWorkgroup"), (37, "SubgroupsPerWorkgroupId"), (38, "LocalSizeId"),
        (39, "LocalSizeHintId"), (4169, "NonCoherentColorAttachmentReadEXT"),
        (4170, "NonCoherentDepthAttachmentReadEXT"), (4171, "NonCoherentStencilAttachmentReadEXT"),
        (4421, "SubgroupUniformControlFlowKHR"), (4446, "PostDepthCoverage"),
        (4459, "DenormPreserve"), (4460, "DenormFlushToZero"), (4461, "SignedZeroInfNanPreserve"),
        (4462, "RoundingModeRTE"), (4463, "RoundingModeRTZ"),
        (5017, "EarlyAndLateFragmentTestsAMD"), (5027, "StencilRefReplacingEXT"),
        (5069, "CoalescingAMDX"), (5071, "MaxNodeRecursionAMDX"),
        (5072, "StaticNumWorkgroupsAMDX"), (5073, "ShaderIndexAMDX"),
        (5077, "MaxNumWorkgroupsAMDX"), (5079, "StencilRefUnchangedFrontAMD"),
        (5080, "StencilRefGreaterFrontAMD"), (5081, "StencilRefLessFrontAMD"),
        (5082, "StencilRefUnchangedBackAMD"), (5083, "StencilRefGreaterBackAMD"),
        (5084, "StencilRefLessBackAMD"), (5269, "OutputLinesNV"), (5270, "OutputPrimitivesNV"),
        (5289, "DerivativeGroupQuadsNV"), (5290, "DerivativeGroupLinearNV"),
        (5298, "OutputTrianglesNV"), (5366, "PixelInterlockOrderedEXT"),
        (5367, "PixelInterlockUnorderedEXT"), (5368, "SampleInterlockOrderedEXT"),
        (5369, "SampleInterlockUnorderedEXT"), (5370, "ShadingRateInterlockOrderedEXT"),
        (5371, "ShadingRateInterlockUnorderedEXT"), (5618, "SharedLocalMemorySizeINTEL"),
        (5620, "RoundingModeRTPINTEL"), (5621, "RoundingModeRTNINTEL"),
        (5622, "FloatingPointModeALTINTEL"), (5623, "FloatingPointModeIEEEINTEL"),
        (5893, "MaxWorkgroupSizeINTEL"), (5894, "MaxWorkDimINTEL"), (5895, "NoGlobalOffsetINTEL"),
        (5896, "NumSIMDWorkitemsINTEL"), (5903, "SchedulerTargetFmaxMhzINTEL"),
        (6154, "StreamingInterfaceINTEL"), (6160, "RegisterMapInterfaceINTEL"),
        (6417, "NamedBarrierCountINTEL")]
  | sourceLanguage =>
      [(0, "Unknown"), (1, "ESSL"), (2, "GLSL"), (3, "OpenCL_C"), (4, "OpenCL_CPP"), (5, "HLSL"),
        (6, "CPP_for_OpenCL"), (7, "SYCL"), (8, "HERO_C"), (9, "NZSL"), (10, "WGSL"),
        (11, "Slang")]
  | storageClass =>
      [(0, "UniformConstant"), (1, "Input"), (2, "Uniform"), (3, "Output"), (4, "Workgroup"),
        (5, "CrossWorkgroup"), (6, "Private"), (7, "Function"), (8, "Generic"),
        (9, "PushConstant"), (10, "AtomicCounter"), (11, "Image"), (12, "StorageBuffer"),
        (4172, "TileImageEXT"), (5068, "NodePayloadAMDX"), (5076, "NodeOutputPayloadAMDX"),
        (5328, "CallableDataNV"), (5329, "IncomingCallableDataNV"), (5338, "RayPayloadNV"),
        (5339, "HitAttributeNV"), (5342, "IncomingRayPayloadNV"), (5343, "ShaderRecordBufferNV"),
        (5349, "PhysicalStorageBuffer"), (5385, "HitObjectAttributeNV"),
        (5402, "TaskPayloadWorkgroupEXT"), (5605, "CodeSectionINTEL"), (5936, "DeviceOnlyINTEL"),
        (5937, "HostOnlyINTEL")]
  | dim =>
      [(0, "1D"), (1, "2D"), (2, "3D"), (3, "Cube"), (4, "Rect"), (5, "Buffer"),
        (6, "SubpassData"), (4173, "TileImageDataEXT")]
  | imageFormat =>
      [(0, "Unknown"), (1, "Rgba32f"), (2, "Rgba16f"), (3, "R32f"), (4, "Rgba8"),
        (5, "Rgba8Snorm"), (6, "Rg32f"), (7, "Rg16f"), (8, "R11fG11fB10f"), (9, "R16f"),
        (10, "Rgba16"), (11, "Rgb10A2"), (12, "Rg16"), (13, "Rg8"), (14, "R16"), (15, "R8"),
        (16, "Rgba16Snorm"), (17, "Rg16Snorm"), (18, "Rg8Snorm"), (19, "R16Snorm"),
        (20, "R8Snorm"), (21, "Rgba32i"), (22, "Rgba16i"), (23, "Rgba8i"), (24, "R32i"),
        (25, "Rg32i"), (26, "Rg16i"), (27, "Rg8i"), (28, "R16i"), (29, "R8i"), (30, "Rgba32ui"),
        (31, "Rgba16ui"), (32, "Rgba8ui"), (33, "R32ui"), (34, "Rgb10a2ui"), (35, "Rg32ui"),
        (36, "Rg16ui"), (37, "Rg8ui"), (38, "R16ui"), (39, "R8ui"), (40, "R64ui"), (41, "R64i")]
  | accessQualifier =>
      [(0, "ReadOnly"), (1, "WriteOnly"), (2, "ReadWrite")]
  | decoration =>
      [(0, "RelaxedPrecision"), (1, "SpecId"), (2, "Block"), (3, "BufferBlock"), (4, "RowMajor"),
        (5, "ColMajor"), (6, "ArrayStride"), (7, "MatrixStride"), (8, "GLSLShared"),
        (9, "GLSLPacked"), (10, "CPacked"), (11, "BuiltIn"), (13, "NoPerspective"), (14, "Flat"),
        (15, "Patch"), (16, "Centroid"), (17, "Sample"), (18, "Invariant"), (19, "Restrict"),
        (20, "Aliased"), (21, "Volatile"), (22, "Constant"), (23, "Coherent"), (24, "NonWritable"),
        (25, "NonReadable"), (26, "Uniform"), (27, "UniformId"), (28, "SaturatedConversion"),
        (29, "Stream"), (30, "Location"), (31, "Component"), (32, "Index"), (33, "Binding"),
        (34, "DescriptorSet"), (35, "Offset"), (36, "XfbBuffer"), (37, "XfbStride"),
        (38, "FuncParamAttr"), (39, "FPRoundingMode"), (40, "FPFastMathMode"),
        (41, "LinkageAttributes"), (42, "NoContraction"), (43, "InputAttachmentIndex"),
        (44, "Alignment"), (45, "MaxByteOffset"), (46, "AlignmentId"), (47, "MaxByteOffsetId"),
        (4469, "NoSignedWrap"), (4470, "NoUnsignedWrap"), (4487, "WeightTextureQCOM"),
        (4488, "BlockMatchTextureQCOM"), (4999, "ExplicitInterpAMD"),
        (5019, "NodeSharesPayloadLimitsWithAMDX"), (5020, "NodeMaxPayloadsAMDX"),
        (5078, "TrackFinishWritingAMDX"), (5091, "PayloadNodeNameAMDX"),
        (5248, "OverrideCoverageNV"), (5250, "PassthroughNV"), (5252, "ViewportRelativeNV"),
        (5256, "SecondaryViewportRelativeNV"), (5271, "PerPrimitiveNV"), (5272, "PerViewNV"),
        (5273, "PerTaskNV"), (5285, "PerVertexKHR"), (5300, "NonUniform"),
        (5355, "RestrictPointer"), (5356, "AliasedPointer"),
        (5386, "HitObjectShaderRecordBufferNV"), (5398, "BindlessSamplerNV"),
        (5399, "BindlessImageNV"), (5400, "BoundSamplerNV"), (5401, "BoundImageNV"),
        (5599, "SIMTCallINTEL"), (5602, "ReferencedIndirectlyINTEL"), (5607, "ClobberINTEL"),
        (5608, "SideEffectsINTEL"), (5624, "VectorComputeVariableINTEL"),
        (5625, "FuncParamIOKindINTEL"), (5626, "VectorComputeFunctionINTEL"),
        (5627, "StackCallINTEL"), (5628, "GlobalVariableOffsetINTEL"), (5634, "CounterBuffer"),
        (5635, "UserSemantic"), (5636, "UserTypeGOOGLE"), (5822, "FunctionRoundingModeINTEL"),
        (5823, "FunctionDenormModeINTEL"), (5825, "RegisterINTEL"), (5826, "MemoryINTEL"),
        (5827, "NumbanksINTEL"), (5828, "BankwidthINTEL"), (5829, "MaxPrivateCopiesINTEL"),
        (5830, "SinglepumpINTEL"), (5831, "DoublepumpINTEL"), (5832, "MaxReplicatesINTEL"),
        (5833, "SimpleDualPortINTEL"), (5834, "MergeINTEL"), (5835, "BankBitsINTEL"),
        (5836, "ForcePow2DepthINTEL"), (5883, "StridesizeINTEL"), (5884, "WordsizeINTEL"),
        (5885, "TrueDualPortINTEL"), (5899, "BurstCoalesceINTEL"), (5900, "CacheSizeINTEL"),
        (5901, "DontStaticallyCoalesceINTEL"), (5902, "PrefetchINTEL"), (5905, "StallEnableINTEL"),
        (5907, "FuseLoopsInFunctionINTEL"), (5909, "MathOpDSPModeINTEL"),
        (5914, "AliasScopeINTEL"), (5915, "NoAliasINTEL"), (5917, "InitiationIntervalINTEL"),
        (5918, "MaxConcurrencyINTEL"), (5919, "PipelineEnableINTEL"),
        (5921, "BufferLocationINTEL"), (5944, "IOPipeStorageINTEL"),
        (6080, "FunctionFloatingPointModeINTEL"), (6085, "SingleElementVectorINTEL"),
        (6087, "VectorComputeCallableFunctionINTEL"), (6140, "MediaBlockIOINTEL"),
        (6151, "StallFreeINTEL"), (6170, "FPMaxErrorDecorationINTEL"),
        (6172, "LatencyControlLabelINTEL"), (6173, "LatencyControlConstraintINTEL"),
        (6175, "ConduitKernelArgumentINTEL"), (6176, "RegisterMapKernelArgumentINTEL"),
        (6177, "MMHostInterfaceAddressWidthINTEL"), (6178, "MMHostInterfaceDataWidthINTEL"),
        (6179, "MMHostInterfaceLatencyINTEL"), (6180, "MMHostInterfaceReadWriteModeINTEL"),
        (6181, "MMHostInterfaceMaxBurstINTEL"), (6182, "MMHostInterfaceWaitRequestINTEL"),
        (6183, "StableKernelArgumentINTEL"), (6188, "HostAccessINTEL"), (6190, "InitModeINTEL"),
        (6191, "ImplementInRegisterMapINTEL"), (6442, "CacheControlLoadINTEL"),
        (6443, "CacheControlStoreINTEL")]
  | builtIn =>
      [(0, "Position"), (1, "PointSize"), (3, "ClipDistance"), (4, "CullDistance"),
        (5, "VertexId"), (6, "InstanceId"), (7, "PrimitiveId"), (8, "InvocationId"), (9, "Layer"),
        (10, "ViewportIndex"), (11, "TessLevelOuter"), (12, "TessLevelInner"), (13, "TessCoord"),
        (14, "PatchVertices"), (15, "FragCoord"), (16, "PointCoord"), (17, "FrontFacing"),
        (18, "SampleId"), (19, "SamplePosition"), (20, "SampleMask"), (22, "FragDepth"),
        (23, "HelperInvocation"), (24, "NumWorkgroups"), (25, "WorkgroupSize"),
        (26, "WorkgroupId"), (27, "LocalInvocationId"), (28, "GlobalInvocationId"),
        (29, "LocalInvocationIndex"), (30, "WorkDim"), (31, "GlobalSize"),
        (32, "EnqueuedWorkgroupSize"), (33, "GlobalOffset"), (34, "GlobalLinearId"),
        (36, "SubgroupSize"), (37, "SubgroupMaxSize"), (38, "NumSubgroups"),
        (39, "NumEnqueuedSubgroups"), (40, "SubgroupId"), (41, "SubgroupLocalInvocationId"),
        (42, "VertexIndex"), (43, "InstanceIndex"), (4160, "CoreIDARM"), (4161, "CoreCountARM"),
        (4162, "CoreMaxIDARM"), (4163, "WarpIDARM"), (4164, "WarpMaxIDARM"),
        (4416, "SubgroupEqMask"), (4417, "SubgroupGeMask"), (4418, "SubgroupGtMask"),
        (4419, "SubgroupLeMask"), (4420, "SubgroupLtMask"), (4424, "BaseVertex"),
        (4425, "BaseInstance"), (4426, "DrawIndex"), (4432, "PrimitiveShadingRateKHR"),
        (4438, "DeviceIndex"), (4440, "ViewIndex"), (4444, "ShadingRateKHR"),
        (4992, "BaryCoordNoPerspAMD"), (4993, "BaryCoordNoPerspCentroidAMD"),
        (4994, "BaryCoordNoPerspSampleAMD"), (4995, "BaryCoordSmoothAMD"),
        (4996, "BaryCoordSmoothCentroidAMD"), (4997, "BaryCoordSmoothSampleAMD"),
        (4998, "BaryCoordPullModelAMD"), (5014, "FragStencilRefEXT"),
        (5021, "CoalescedInputCountAMDX"), (5073, "ShaderIndexAMDX"), (5253, "ViewportMaskNV"),
        (5257, "SecondaryPositionNV"), (5258, "SecondaryViewportMaskNV"),
        (5261, "PositionPerViewNV"), (5262, "ViewportMaskPerViewNV"), (5264, "FullyCoveredEXT"),
        (5274, "TaskCountNV"), (5275, "PrimitiveCountNV"), (5276, "PrimitiveIndicesNV"),
        (5277, "ClipDistancePerViewNV"), (5278, "CullDistancePerViewNV"), (5279, "LayerPerViewNV"),
        (5280, "MeshViewCountNV"), (5281, "MeshViewIndicesNV"), (5286, "BaryCoordKHR"),
        (5287, "BaryCoordNoPerspKHR"), (5292, "FragSizeEXT"), (5293, "FragInvocationCountEXT"),
        (5294, "PrimitivePointIndicesEXT"), (5295, "PrimitiveLineIndicesEXT"),
        (5296, "PrimitiveTriangleIndicesEXT"), (5299, "CullPrimitiveEXT"), (5319, "LaunchIdNV"),
        (5320, "LaunchSizeNV"), (5321, "WorldRayOriginNV"), (5322, "WorldRayDirectionNV"),
        (5323, "ObjectRayOriginNV"), (5324, "ObjectRayDirectionNV"), (5325, "RayTminNV"),
        (5326, "RayTmaxNV"), (5327, "InstanceCustomIndexNV"), (5330, "ObjectToWorldNV"),
        (5331, "WorldToObjectNV"), (5332, "HitTNV"), (5333, "HitKindNV"),
        (5334, "CurrentRayTimeNV"), (5335, "HitTriangleVertexPositionsKHR"),
        (5337, "HitMicroTriangleVertexPositionsNV"),
        (5344, "HitMicroTriangleVertexBarycentricsNV"), (5351, "IncomingRayFlagsNV"),
        (5352, "RayGeometryIndexKHR"), (5374, "WarpsPerSMNV"), (5375, "SMCountNV"),
        (5376, "WarpIDNV"), (5377, "SMIDNV"), (5405, "HitKindFrontFacingMicroTriangleNV"),
        (5406, "HitKindBackFacingMicroTriangleNV"), (6021, "CullMaskKHR")]
  | parameterAttribute =>
      [(0, "Zext"), (1, "Sext"), (2, "ByVal"), (3, "Sret"), (4, "NoAlias"), (5, "NoCapture"),
        (6, "NoWrite"), (7, "NoReadWrite"), (5940, "RuntimeAlignedINTEL")]
  | roundingMode =>
      [(0, "RTE"), (1, "RTZ"), (2, "RTP"), (3, "RTN")]
  | linkageType =>
      [(0, "Export"), (1, "Import"), (2, "LinkOnceODR")]
  | denormMode =>
      [(0, "Preserve"), (1, "FlushToZero")]
  | operationMode =>
      [(0, "IEEE"), (1, "ALT")]
  | hostAccess =>
      [(0, "NoneINTEL"), (1, "ReadINTEL"), (2, "WriteINTEL"), (3, "ReadWriteINTEL")]
  | initializationMode =>
      [(0, "InitOnDeviceReprogramINTEL"), (1, "InitOnDeviceResetINTEL")]
  | loadCache =>
      [(0, "UncachedINTEL"), (1, "CachedINTEL"), (2, "StreamingINTEL"),
        (3, "InvalidateAfterReadINTEL"), (4, "ConstCachedINTEL")]
  | storeCache =>
      [(0, "UncachedINTEL"), (1, "WriteThroughINTEL"), (2, "WriteBackINTEL"),
        (3, "StreamingINTEL")]
  | groupOperation =>
      [(0, "Reduce"), (1, "InclusiveScan"), (2, "ExclusiveScan"), (3, "ClusteredReduce"),
        (6, "PartitionedReduceNV"), (7, "PartitionedInclusiveScanNV"), (8, "PartitionedExclusiveScanNV")]

def valueName? (k : EnumKind) (value : Nat) : Option String :=
  (k.values.find? (·.1 == value)).map (·.2)

end EnumKind

inductive MaskKind where
  | functionControl | memoryAccess | fastMath | imageOperands | loopControl | selectionControl
  deriving DecidableEq, Repr

namespace MaskKind

def title : MaskKind → String
  | functionControl => "FunctionControl"
  | memoryAccess => "MemoryAccess"
  | fastMath => "FPFastMathMode"
  | imageOperands => "ImageOperands"
  | loopControl => "LoopControl"
  | selectionControl => "SelectionControl"

/-- The bits of a family with their names, of which a bit may have several. -/
def bits : MaskKind → List (Nat × List String)
  | functionControl =>
      [(1, ["Inline"]), (2, ["DontInline"]), (4, ["Pure"]), (8, ["Const"]), (65536, ["OptNoneINTEL"])]
  | memoryAccess =>
      [(1, ["Volatile"]), (2, ["Aligned"]), (4, ["Nontemporal"]),
        (8, ["MakePointerAvailable", "MakePointerAvailableKHR"]),
        (16, ["MakePointerVisible", "MakePointerVisibleKHR"]),
        (32, ["NonPrivatePointer", "NonPrivatePointerKHR"]), (65536, ["AliasScopeINTELMask"]),
        (131072, ["NoAliasINTELMask"])]
  | fastMath =>
      [(1, ["NotNaN"]), (2, ["NotInf"]), (4, ["NSZ"]), (8, ["AllowRecip"]), (16, ["Fast"]),
        (65536, ["AllowContractFastINTEL"]), (131072, ["AllowReassocINTEL"])]
  | imageOperands =>
      [(1, ["Bias"]), (2, ["Lod"]), (4, ["Grad"]), (8, ["ConstOffset"]), (16, ["Offset"]),
        (32, ["ConstOffsets"]), (64, ["Sample"]), (128, ["MinLod"]),
        (256, ["MakeTexelAvailable", "MakeTexelAvailableKHR"]),
        (512, ["MakeTexelVisible", "MakeTexelVisibleKHR"]),
        (1024, ["NonPrivateTexel", "NonPrivateTexelKHR"]),
        (2048, ["VolatileTexel", "VolatileTexelKHR"]), (4096, ["SignExtend"]), (8192, ["ZeroExtend"]),
        (16384, ["Nontemporal"]), (65536, ["Offsets"])]
  | loopControl =>
      [(1, ["Unroll"]), (2, ["DontUnroll"]), (4, ["DependencyInfinite"]), (8, ["DependencyLength"]),
        (16, ["MinIterations"]), (32, ["MaxIterations"]), (64, ["IterationMultiple"]),
        (128, ["PeelCount"]), (256, ["PartialCount"])]
  | selectionControl =>
      [(1, ["Flatten"]), (2, ["DontFlatten"])]

def holds (value bit : Nat) : Bool :=
  value / bit % 2 = 1

def known (k : MaskKind) (value : Nat) : List (Nat × List String) :=
  k.bits.filter fun b => holds value b.1

def names (k : MaskKind) (value : Nat) : List String :=
  (k.known value).flatMap (·.2)

def isKnown (k : MaskKind) (value : Nat) : Bool :=
  value == (k.known value).foldl (fun sum b => sum + b.1) 0

end MaskKind

end ShaderPipeline.Spirv

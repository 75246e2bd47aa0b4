/-!
Scalar kinds and the formats of images, texel buffers and vertex attributes.

Codes are those of the Vulkan formats.  A catalog names a format in capitals (`R32G32_SFLOAT`); the
formats with several 64-bit components arise as vertex attributes only and have no such name.
-/

set_option autoImplicit false
set_option relaxedAutoImplicit false

namespace ShaderPipeline

/-- The type of one component of a format or of one constant. -/
inductive ScalarKind where
  | bool | int32 | uint32 | int64 | uint64 | float32 | float64
  deriving DecidableEq, Repr, Inhabited

namespace ScalarKind

def all : List ScalarKind :=
  [bool, int32, uint32, int64, uint64, float32, float64]

def name : ScalarKind → String
  | bool => "bool"
  | int32 => "int32"
  | uint32 => "u_int32"
  | int64 => "int64"
  | uint64 => "u_int64"
  | float32 => "float32"
  | float64 => "float64"

def ofName? (s : String) : Option ScalarKind :=
  all.find? (·.name == s)

def byteWidth : ScalarKind → Nat
  | bool | int32 | uint32 | float32 => 4
  | int64 | uint64 | float64 => 8

end ScalarKind

/-- A format: component widths, then the interpretation of the components. -/
inductive Format where
  | unknown | r8Unorm | r8Uint | r8Sint | r8G8Unorm | r8G8Uint | r8G8Sint | r8G8B8A8Unorm
  | r8G8B8A8Uint | r8G8B8A8Sint | r8G8B8A8Srgb | a2B10G10R10UnormPack32 | a2B10G10R10UintPack32
  | r16Uint | r16Sint | r16Sfloat | r16G16Uint | r16G16Sint | r16G16Sfloat | r16G16B16A16Uint
  | r16G16B16A16Sint | r16G16B16A16Sfloat | r32Uint | r32Sint | r32Sfloat | r32G32Uint
  | r32G32Sint | r32G32Sfloat | r32G32B32Uint | r32G32B32Sint | r32G32B32Sfloat
  | r32G32B32A32Uint | r32G32B32A32Sint | r32G32B32A32Sfloat | r64Uint | r64Sint | r64Sfloat
  | r64G64Uint | r64G64Sint | r64G64Sfloat | r64G64B64Uint | r64G64B64Sint | r64G64B64Sfloat
  | r64G64B64A64Uint | r64G64B64A64Sint | r64G64B64A64Sfloat
  deriving DecidableEq, Repr, Inhabited

namespace Format

def all : List Format :=
  [unknown, r8Unorm, r8Uint, r8Sint, r8G8Unorm, r8G8Uint, r8G8Sint, r8G8B8A8Unorm, r8G8B8A8Uint,
    r8G8B8A8Sint, r8G8B8A8Srgb, a2B10G10R10UnormPack32, a2B10G10R10UintPack32, r16Uint, r16Sint,
    r16Sfloat, r16G16Uint, r16G16Sint, r16G16Sfloat, r16G16B16A16Uint, r16G16B16A16Sint,
    r16G16B16A16Sfloat, r32Uint, r32Sint, r32Sfloat, r32G32Uint, r32G32Sint, r32G32Sfloat,
    r32G32B32Uint, r32G32B32Sint, r32G32B32Sfloat, r32G32B32A32Uint, r32G32B32A32Sint,
    r32G32B32A32Sfloat, r64Uint, r64Sint, r64Sfloat, r64G64Uint, r64G64Sint, r64G64Sfloat,
    r64G64B64Uint, r64G64B64Sint, r64G64B64Sfloat, r64G64B64A64Uint, r64G64B64A64Sint,
    r64G64B64A64Sfloat]

def code : Format → Nat
  | unknown => 0
  | r8Unorm => 9
  | r8Uint => 13
  | r8Sint => 14
  | r8G8Unorm => 16
  | r8G8Uint => 20
  | r8G8Sint => 21
  | r8G8B8A8Unorm => 37
  | r8G8B8A8Uint => 41
  | r8G8B8A8Sint => 42
  | r8G8B8A8Srgb => 43
  | a2B10G10R10UnormPack32 => 64
  | a2B10G10R10UintPack32 => 68
  | r16Uint => 74
  | r16Sint => 75
  | r16Sfloat => 76
  | r16G16Uint => 81
  | r16G16Sint => 82
  | r16G16Sfloat => 83
  | r16G16B16A16Uint => 95
  | r16G16B16A16Sint => 96
  | r16G16B16A16Sfloat => 97
  | r32Uint => 98
  | r32Sint => 99
  | r32Sfloat => 100
  | r32G32Uint => 101
  | r32G32Sint => 102
  | r32G32Sfloat => 103
  | r32G32B32Uint => 104
  | r32G32B32Sint => 105
  | r32G32B32Sfloat => 106
  | r32G32B32A32Uint => 107
  | r32G32B32A32Sint => 108
  | r32G32B32A32Sfloat => 109
  | r64Uint => 110
  | r64Sint => 111
  | r64Sfloat => 112
  | r64G64Uint => 113
  | r64G64Sint => 114
  | r64G64Sfloat => 115
  | r64G64B64Uint => 116
  | r64G64B64Sint => 117
  | r64G64B64Sfloat => 118
  | r64G64B64A64Uint => 119
  | r64G64B64A64Sint => 120
  | r64G64B64A64Sfloat => 121

def name : Format → String
  | unknown => "Unknown"
  | r8Unorm => "R8Unorm"
  | r8Uint => "R8Uint"
  | r8Sint => "R8Sint"
  | r8G8Unorm => "R8G8Unorm"
  | r8G8Uint => "R8G8Uint"
  | r8G8Sint => "R8G8Sint"
  | r8G8B8A8Unorm => "R8G8B8A8Unorm"
  | r8G8B8A8Uint => "R8G8B8A8Uint"
  | r8G8B8A8Sint => "R8G8B8A8Sint"
  | r8G8B8A8Srgb => "R8G8B8A8Srgb"
  | a2B10G10R10UnormPack32 => "A2B10G10R10UnormPack32"
  | a2B10G10R10UintPack32 => "A2B10G10R10UintPack32"
  | r16Uint => "R16Uint"
  | r16Sint => "R16Sint"
  | r16Sfloat => "R16Sfloat"
  | r16G16Uint => "R16G16Uint"
  | r16G16Sint => "R16G16Sint"
  | r16G16Sfloat => "R16G16Sfloat"
  | r16G16B16A16Uint => "R16G16B16A16Uint"
  | r16G16B16A16Sint => "R16G16B16A16Sint"
  | r16G16B16A16Sfloat => "R16G16B16A16Sfloat"
  | r32Uint => "R32Uint"
  | r32Sint => "R32Sint"
  | r32Sfloat => "R32Sfloat"
  | r32G32Uint => "R32G32Uint"
  | r32G32Sint => "R32G32Sint"
  | r32G32Sfloat => "R32G32Sfloat"
  | r32G32B32Uint => "R32G32B32Uint"
  | r32G32B32Sint => "R32G32B32Sint"
  | r32G32B32Sfloat => "R32G32B32Sfloat"
  | r32G32B32A32Uint => "R32G32B32A32Uint"
  | r32G32B32A32Sint => "R32G32B32A32Sint"
  | r32G32B32A32Sfloat => "R32G32B32A32Sfloat"
  | r64Uint => "R64Uint"
  | r64Sint => "R64Sint"
  | r64Sfloat => "R64Sfloat"
  | r64G64Uint => "R64G64Uint"
  | r64G64Sint => "R64G64Sint"
  | r64G64Sfloat => "R64G64Sfloat"
  | r64G64B64Uint => "R64G64B64Uint"
  | r64G64B64Sint => "R64G64B64Sint"
  | r64G64B64Sfloat => "R64G64B64Sfloat"
  | r64G64B64A64Uint => "R64G64B64A64Uint"
  | r64G64B64A64Sint => "R64G64B64A64Sint"
  | r64G64B64A64Sfloat => "R64G64B64A64Sfloat"

/-- The name by which a catalog refers to a format, for those it can. -/
def catalogName? : Format → Option String
  | unknown => some "UNKNOWN"
  | r8Unorm => some "R8_UNORM"
  | r8Uint => some "R8_UINT"
  | r8Sint => some "R8_SINT"
  | r8G8Unorm => some "R8G8_UNORM"
  | r8G8Uint => some "R8G8_UINT"
  | r8G8Sint => some "R8G8_SINT"
  | r8G8B8A8Unorm => some "R8G8B8A8_UNORM"
  | r8G8B8A8Uint => some "R8G8B8A8_UINT"
  | r8G8B8A8Sint => some "R8G8B8A8_SINT"
  | r8G8B8A8Srgb => some "R8G8B8A8_SRGB"
  | a2B10G10R10UnormPack32 => some "A2B10G10R10_UNORM_PACK32"
  | a2B10G10R10UintPack32 => some "A2B10G10R10_UINT_PACK32"
  | r16Uint => some "R16_UINT"
  | r16Sint => some "R16_SINT"
  | r16Sfloat => some "R16_SFLOAT"
  | r16G16Uint => some "R16G16_UINT"
  | r16G16Sint => some "R16G16_SINT"
  | r16G16Sfloat => some "R16G16_SFLOAT"
  | r16G16B16A16Uint => some "R16G16B16A16_UINT"
  | r16G16B16A16Sint => some "R16G16B16A16_SINT"
  | r16G16B16A16Sfloat => some "R16G16B16A16_SFLOAT"
  | r32Uint => some "R32_UINT"
  | r32Sint => some "R32_SINT"
  | r32Sfloat => some "R32_SFLOAT"
  | r32G32Uint => some "R32G32_UINT"
  | r32G32Sint => some "R32G32_SINT"
  | r32G32Sfloat => some "R32G32_SFLOAT"
  | r32G32B32Uint => some "R32G32B32_UINT"
  | r32G32B32Sint => some "R32G32B32_SINT"
  | r32G32B32Sfloat => some "R32G32B32_SFLOAT"
  | r32G32B32A32Uint => some "R32G32B32A32_UINT"
  | r32G32B32A32Sint => some "R32G32B32A32_SINT"
  | r32G32B32A32Sfloat => some "R32G32B32A32_SFLOAT"
  | r64Uint => some "R64_UINT"
  | r64Sint => some "R64_SINT"
  | r64Sfloat => some "R64_SFLOAT"
  | _ => none

def ofCatalogName? (s : String) : Option Format :=
  all.find? (·.catalogName? == some s)

def unknownMessage (word : String) : String :=
  s!"unknown format `{word}`"

def ofName? (s : String) : Option Format :=
  all.find? (·.name == s)

/-- The image layout qualifier of a format that storage images and texel buffers can have. -/
def layoutQualifier? : Format → Option String
  | r8Unorm => some "r8"
  | r8Uint => some "r8ui"
  | r8Sint => some "r8i"
  | r8G8Unorm => some "rg8"
  | r8G8Uint => some "rg8ui"
  | r8G8Sint => some "rg8i"
  | r8G8B8A8Unorm => some "rgba8"
  | r8G8B8A8Uint => some "rgba8ui"
  | r8G8B8A8Sint => some "rgba8i"
  | r8G8B8A8Srgb => some "rgba8"
  | a2B10G10R10UnormPack32 => some "rgb10_a2"
  | a2B10G10R10UintPack32 => some "rgb10_a2ui"
  | r16Uint => some "r16ui"
  | r16Sint => some "r16i"
  | r16Sfloat => some "r16f"
  | r16G16Uint => some "rg16ui"
  | r16G16Sint => some "rg16i"
  | r16G16Sfloat => some "rg16f"
  | r16G16B16A16Uint => some "rgba16ui"
  | r16G16B16A16Sint => some "rgba16i"
  | r16G16B16A16Sfloat => some "rgba16f"
  | r32Uint => some "r32ui"
  | r32Sint => some "r32i"
  | r32Sfloat => some "r32f"
  | r32G32Uint => some "rg32ui"
  | r32G32Sint => some "rg32i"
  | r32G32Sfloat => some "rg32f"
  | r32G32B32A32Uint => some "rgba32ui"
  | r32G32B32A32Sint => some "rgba32i"
  | r32G32B32A32Sfloat => some "rgba32f"
  | r64Uint => some "r64ui"
  | r64Sint => some "r64i"
  | _ => none

/-- What a sampler or image type of this format starts with: signed and unsigned are marked. -/
def samplerMark : Format → String
  | r8Uint | r8G8Uint | r8G8B8A8Uint | a2B10G10R10UintPack32 | r16Uint | r16G16Uint
  | r16G16B16A16Uint | r32Uint | r32G32Uint | r32G32B32Uint | r32G32B32A32Uint | r64Uint
  | r64G64Uint | r64G64B64Uint | r64G64B64A64Uint => "u"
  | r8Sint | r8G8Sint | r8G8B8A8Sint | r16Sint | r16G16Sint | r16G16B16A16Sint | r32Sint
  | r32G32Sint | r32G32B32Sint | r32G32B32A32Sint | r64Sint | r64G64Sint | r64G64B64Sint
  | r64G64B64A64Sint => "i"
  | _ => ""

/-- The format of an attribute with the given number of scalars: one to four, else unknown. -/
def ofComponents : ScalarKind → Nat → Format
  | .float32, 1 => r32Sfloat
  | .float32, 2 => r32G32Sfloat
  | .float32, 3 => r32G32B32Sfloat
  | .float32, 4 => r32G32B32A32Sfloat
  | .int32, 1 => r32Sint
  | .int32, 2 => r32G32Sint
  | .int32, 3 => r32G32B32Sint
  | .int32, 4 => r32G32B32A32Sint
  | .uint32, 1 | .bool, 1 => r32Uint
  | .uint32, 2 | .bool, 2 => r32G32Uint
  | .uint32, 3 | .bool, 3 => r32G32B32Uint
  | .uint32, 4 | .bool, 4 => r32G32B32A32Uint
  | .float64, 1 => r64Sfloat
  | .float64, 2 => r64G64Sfloat
  | .float64, 3 => r64G64B64Sfloat
  | .float64, 4 => r64G64B64A64Sfloat
  | .int64, 1 => r64Sint
  | .int64, 2 => r64G64Sint
  | .int64, 3 => r64G64B64Sint
  | .int64, 4 => r64G64B64A64Sint
  | .uint64, 1 => r64Uint
  | .uint64, 2 => r64G64Uint
  | .uint64, 3 => r64G64B64Uint
  | .uint64, 4 => r64G64B64A64Uint
  | _, _ => unknown

/-- How many bytes a vertex attribute of this format takes; zero for formats that attributes do not
have. -/
def attributeSize : Format → Nat
  | r32Uint | r32Sint | r32Sfloat => 4
  | r32G32Uint | r32G32Sint | r32G32Sfloat | r64Uint | r64Sint | r64Sfloat => 8
  | r32G32B32Uint | r32G32B32Sint | r32G32B32Sfloat => 12
  | r32G32B32A32Uint | r32G32B32A32Sint | r32G32B32A32Sfloat
  | r64G64Uint | r64G64Sint | r64G64Sfloat => 16
  | r64G64B64Uint | r64G64B64Sint | r64G64B64Sfloat => 24
  | r64G64B64A64Uint | r64G64B64A64Sint | r64G64B64A64Sfloat => 32
  | _ => 0

end Format

end ShaderPipeline

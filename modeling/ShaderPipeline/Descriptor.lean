import ShaderPipeline.Flags

/-!
Descriptor kinds, the ways a stage accesses a resource, and image dimensions.
-/

set_option autoImplicit false
set_option relaxedAutoImplicit false

namespace ShaderPipeline

/-- What kind of object a resource is bound as.  A push-constant block takes no binding. -/
inductive DescriptorKind where
  | sampler | combinedImageSampler | sampledImage | storageImage | uniformTexelBuffer
  | storageTexelBuffer | uniformBuffer | storageBuffer | inputAttachment | accelerationStructure
  | pushConstant
  deriving DecidableEq, Repr, Inhabited

namespace DescriptorKind

def all : List DescriptorKind :=
  [sampler, combinedImageSampler, sampledImage, storageImage, uniformTexelBuffer,
    storageTexelBuffer, uniformBuffer, storageBuffer, inputAttachment, accelerationStructure,
    pushConstant]

def code : DescriptorKind → Nat
  | sampler => 0
  | combinedImageSampler => 1
  | sampledImage => 2
  | storageImage => 3
  | uniformTexelBuffer => 4
  | storageTexelBuffer => 5
  | uniformBuffer => 6
  | storageBuffer => 7
  | inputAttachment => 10
  | accelerationStructure => 1000150000
  | pushConstant => 0x7fff0000

def name : DescriptorKind → String
  | sampler => "sampler"
  | combinedImageSampler => "combined_image_sampler"
  | sampledImage => "sampled_image"
  | storageImage => "storage_image"
  | uniformTexelBuffer => "uniform_texel_buffer"
  | storageTexelBuffer => "storage_texel_buffer"
  | uniformBuffer => "uniform_buffer"
  | storageBuffer => "storage_buffer"
  | inputAttachment => "input_attachment"
  | accelerationStructure => "acceleration_structure"
  | pushConstant => "push_constant"

def aliases : DescriptorKind → List String
  | combinedImageSampler => ["sampler2D", "texture"]
  | storageImage => ["image"]
  | uniformBuffer => ["ubo"]
  | storageBuffer => ["ssbo"]
  | _ => []

def ofName? (word : String) : Option DescriptorKind :=
  all.find? (·.name == word)

def ofWord? (word : String) : Option DescriptorKind :=
  all.find? fun k => k.name == word || k.aliases.contains word

def unknownMessage (word : String) : String :=
  s!"unknown descriptor kind `{word}`"

def reflected : List DescriptorKind :=
  [uniformBuffer, storageBuffer, inputAttachment, sampledImage, sampler, combinedImageSampler,
    storageImage, uniformTexelBuffer, storageTexelBuffer]

/-- Whether stages can only read resources of the kind. -/
def isReadOnly : DescriptorKind → Bool
  | uniformBuffer | uniformTexelBuffer | sampler | combinedImageSampler | sampledImage
  | inputAttachment => true
  | _ => false

/-- Whether resources of the kind take a binding of a descriptor set. -/
def isDescriptor : DescriptorKind → Bool
  | pushConstant => false
  | _ => true

end DescriptorKind

/-- How a stage accesses a resource: one bit for reading and one for writing. -/
structure Access where
  bits : UInt32
  deriving DecidableEq, Repr, Inhabited

namespace Access

def none : Access :=
  ⟨0⟩

def read : Access :=
  ⟨1⟩

def write : Access :=
  ⟨2⟩

def readWrite : Access :=
  ⟨3⟩

def union (a b : Access) : Access :=
  ⟨a.bits ||| b.bits⟩

def without (a b : Access) : Access :=
  ⟨a.bits &&& ~~~b.bits⟩

def includes (a b : Access) : Bool :=
  a.bits &&& b.bits == b.bits

def flagNames : Flags.Names :=
  [("NONE", 0), ("READ", 1), ("WRITE", 2), ("READ_WRITE", 3)]

def flags (a : Access) : String :=
  Flags.render flagNames a.bits

def ofFlags (text : String) : Except Flags.ReadError Access :=
  (Flags.read flagNames text).map Access.mk

/-- The access that memory qualifiers leave: the words `readonly` and `writeonly` each take the other
away, and without either of them nothing is said. -/
def ofQualifiers? (qualifiers : String) : Option Access :=
  let ws := Text.words qualifiers
  match ws.contains "readonly", ws.contains "writeonly" with
  | true, true => some none
  | true, false => some read
  | false, true => some write
  | false, false => Option.none

end Access

inductive ImageDimension where
  | line | plane | volume | cube | lineArray | planeArray | cubeArray | multisample
  | multisampleArray
  deriving DecidableEq, Repr

namespace ImageDimension

instance : Inhabited ImageDimension :=
  ⟨plane⟩

def all : List ImageDimension :=
  [line, plane, volume, cube, lineArray, planeArray, cubeArray, multisample, multisampleArray]

/-- The name of a dimension, which image and sampler types end in. -/
def name : ImageDimension → String
  | line => "1D"
  | plane => "2D"
  | volume => "3D"
  | cube => "Cube"
  | lineArray => "1DArray"
  | planeArray => "2DArray"
  | cubeArray => "CubeArray"
  | multisample => "2DMS"
  | multisampleArray => "2DMSArray"

def ofName? (word : String) : Option ImageDimension :=
  all.find? (·.name == word)

def unknownMessage (word : String) : String :=
  s!"unknown image dimension `{word}`"

end ImageDimension

end ShaderPipeline

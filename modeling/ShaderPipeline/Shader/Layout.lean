import ShaderPipeline.Shader.Basic

/-!
The pipeline layout that the tables of a shader ask for.
-/

set_option autoImplicit false
set_option relaxedAutoImplicit false

namespace ShaderPipeline

structure LayoutBinding where
  binding : Nat
  kind : DescriptorKind
  /-- The number of descriptors; zero if it is not bounded. -/
  count : Nat
  stages : StageSet
  deriving DecidableEq, Repr

structure PushRange where
  stages : StageSet
  offset : Nat
  size : Nat
  deriving DecidableEq, Repr

/-- An attribute of the vertices, which come from one buffer. -/
structure VertexAttribute where
  location : Nat
  binding : Nat
  format : Format
  offset : Nat
  deriving DecidableEq, Repr

/-- A specialization constant with the bits of its value. -/
structure SpecRecord where
  id : Nat
  kind : ScalarKind
  value : UInt64
  deriving DecidableEq, Repr

namespace Shader

def layoutBindings (s : Shader) (set : Nat) : List LayoutBinding :=
  (s.setUsages set).map fun u => ⟨u.binding, u.kind, u.count, u.stages⟩

def pushRanges (s : Shader) : List PushRange :=
  s.pushBlocks.map fun b => ⟨b.stages, b.offset, b.size⟩

def vertexAttributes (s : Shader) : List VertexAttribute :=
  (s.inputs (.of .vertex)).map fun a => ⟨a.location, 0, a.format, a.offset⟩

def vertexStride (s : Shader) : Nat :=
  ((s.inputs (.of .vertex)).map fun a => a.offset + a.format.attributeSize).foldl max 0

def specRecords (s : Shader) : List SpecRecord :=
  s.constants.map fun c => ⟨c.id, c.value.kind, c.value.raw⟩

end Shader

end ShaderPipeline

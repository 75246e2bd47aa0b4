import ShaderPipeline.Reflection.Stage

/-!
The binding tables of a shader, into which its stages are folded one by one.

The usages of all stages are kept in descriptor sets, these by their numbers and the usages of each by their
bindings.
-/

set_option autoImplicit false
set_option relaxedAutoImplicit false

namespace ShaderPipeline

abbrev AttributeTable := List (StageSet × List Attribute)

/-- Values under keys, by increasing key. -/
abbrev NumberTable (α : Type) := List (Nat × α)

/-- A descriptor set with the usages under its bindings. -/
structure DescriptorSet where
  set : Nat
  bindings : NumberTable Usage
  deriving DecidableEq, Repr

namespace DescriptorSet

def empty (set : Nat) : DescriptorSet :=
  ⟨set, []⟩

def usages (d : DescriptorSet) : List Usage :=
  d.bindings.map (·.2)

end DescriptorSet

abbrev SetTable := NumberTable DescriptorSet

def SetTable.usageAt? (t : SetTable) (slot : Nat × Nat) : Option Usage :=
  (t.lookup slot.1).bind fun d => d.bindings.lookup slot.2

structure Shader where
  name : String
  /-- The declared stages in order, then others that were folded in. -/
  stages : List StageSet
  /-- What was folded in so far. -/
  parsed : List Identity
  setTable : SetTable
  /-- The push-constant blocks, each behind the one before it. -/
  pushBlocks : List PushBlock
  inputTable : AttributeTable
  outputTable : AttributeTable
  /-- The specialization constants, by number. -/
  constants : List SpecConstant
  deriving DecidableEq

namespace Shader

def new (name : String) (stages : List StageSet) : Shader :=
  ⟨name, stages, [], [], [], [], [], []⟩

/-- The shader of a shader group, into which no stage was folded. -/
def ofGroup (g : ShaderGroup) : Shader :=
  new g.name (g.stages.map (·.stage))

def identity (s : Shader) (stage : StageSet) : Identity :=
  .ofName s.name stage

def isParsed (s : Shader) (i : Identity) : Bool :=
  s.parsed.contains i

def setUsages (s : Shader) (set : Nat) : List Usage :=
  ((s.setTable.lookup set).map (·.usages)).getD []

def usageAt? (s : Shader) (slot : Nat × Nat) : Option Usage :=
  s.setTable.usageAt? slot

def sets (s : Shader) : List DescriptorSet :=
  s.setTable.map (·.2)

def setNumbers (s : Shader) : List Nat :=
  s.sets.map (·.set)

def attributesOf (table : AttributeTable) (stage : StageSet) : List Attribute :=
  ((table.find? (·.1 == stage)).map (·.2)).getD []

def inputs (s : Shader) (stage : StageSet) : List Attribute :=
  attributesOf s.inputTable stage

def outputs (s : Shader) (stage : StageSet) : List Attribute :=
  attributesOf s.outputTable stage

def pushBlock? (s : Shader) (stages : StageSet) : Option PushBlock :=
  s.pushBlocks.find? (·.stages.intersects stages)

end Shader

end ShaderPipeline

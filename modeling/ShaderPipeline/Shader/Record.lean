import ShaderPipeline.Catalog.Record
import ShaderPipeline.Decimal.Shortest
import ShaderPipeline.Shader.Layout

/-!
The tables and layouts of shaders as JSON records, and the dump of a shader.
-/

set_option autoImplicit false
set_option relaxedAutoImplicit false

namespace ShaderPipeline

def ResourceKey.toJson (k : ResourceKey) : Json :=
  .object [("group", .string k.group), ("name", .string k.name)]

def Usage.toJson (u : Usage) : Json :=
  .object
    [("stages", .string u.stages.flags),
      ("name", .string u.name),
      ("resource", .ofOption ResourceKey.toJson u.resource),
      ("access", .string u.access.flags),
      ("kind", .string u.kind.name),
      ("binding", .ofNat u.binding),
      ("set", .ofNat u.set),
      ("count", .ofNat u.count)]

/-- A descriptor set as a record, with its usages under their bindings. -/
def DescriptorSet.toJson (d : DescriptorSet) : Json :=
  .object
    [("set", .ofNat d.set),
      ("bindings", .object (d.bindings.map fun (binding, u) => (toString binding, u.toJson)))]

def PushMember.toJson (m : PushMember) : Json :=
  .object [("name", .string m.name), ("size", .ofNat m.size), ("offset", .ofNat m.offset)]

def Attribute.toJson (a : Attribute) : Json :=
  .object
    [("name", .string a.name), ("location", .ofNat a.location), ("offset", .ofNat a.offset),
      ("format", .string a.format.name)]

/-- A floating-point number as JSON, which has no infinities and nothing that is no number. -/
def Json.ofFloatBits (bits : UInt64) : Json :=
  if bits &&& 0x7FF0000000000000 = 0x7FF0000000000000 then .null else .float bits

namespace SpecValue

def valueJson : SpecValue → Json
  | bool value => .bool value
  | int32 value => .integer value.toInt
  | uint32 value => .ofNat value.toNat
  | int64 value => .integer value.toInt
  | uint64 value => .ofNat value.toNat
  | float32 bits => .ofFloatBits (UInt64.ofNat (Decimal.widen bits.toNat))
  | float64 bits => .ofFloatBits bits

def toJson (v : SpecValue) : Json :=
  .object [("kind", .string v.kind.name), ("value", v.valueJson)]

end SpecValue

def SpecConstant.toJson (c : SpecConstant) : Json :=
  .object [("id", .ofNat c.id), ("name", .string c.name), ("value", c.value.toJson)]

def LayoutBinding.toJson (b : LayoutBinding) : Json :=
  .object
    [("binding", .ofNat b.binding), ("kind", .string b.kind.name), ("count", .ofNat b.count),
      ("stages", .string b.stages.flags)]

def PushRange.toJson (r : PushRange) : Json :=
  .object
    [("stages", .string r.stages.flags), ("offset", .ofNat r.offset), ("size", .ofNat r.size)]

def VertexAttribute.toJson (a : VertexAttribute) : Json :=
  .object
    [("location", .ofNat a.location), ("binding", .ofNat a.binding),
      ("format", .string a.format.name), ("offset", .ofNat a.offset)]

/-- An access in a word; any that is none of the usual ones counts as none. -/
def Access.word (a : Access) : String :=
  if a = .readWrite then "read_write"
  else if a = .read then "read"
  else if a = .write then "write"
  else "none"

namespace Shader

def stageNames (stages : StageSet) : Json :=
  .texts (stages.stages.map Stage.shortName)

def dumpUsage (u : Usage) : Json :=
  .object
    [("binding", .ofNat u.binding),
      ("name", .string u.name),
      ("resource", .ofOption (fun k => .string k.display) u.resource),
      ("kind", .string u.kind.name),
      ("count", .ofNat u.count),
      ("access", .string u.access.word),
      ("stages", stageNames u.stages)]

def dumpSet (d : DescriptorSet) : Json :=
  .object [("set", .ofNat d.set), ("bindings", .ofList dumpUsage d.usages)]

def dumpBlock (b : PushBlock) : Json :=
  .object
    [("name", .string b.name),
      ("stages", stageNames b.stages),
      ("offset", .ofNat b.offset),
      ("size", .ofNat b.size),
      ("members", .ofList PushMember.toJson b.members)]

def dumpStage (s : Shader) (stage : StageSet) : Json :=
  .object
    [("stage", .string stage.shortName),
      ("inputs", .ofList Attribute.toJson (s.inputs stage)),
      ("outputs", .ofList Attribute.toJson (s.outputs stage))]

def dump (s : Shader) : Json :=
  .object
    [("shader", .string s.name),
      ("sets", .ofList dumpSet s.sets),
      ("push_constants", .ofList dumpBlock s.pushBlocks),
      ("attributes", .ofList s.dumpStage s.stages),
      ("specialization_constants", .ofList SpecConstant.toJson s.constants)]

end Shader

end ShaderPipeline

import ShaderPipeline.Catalog.Basic
import ShaderPipeline.Json.Value

/-!
The entries of a catalog as JSON records, in which every field is written out.
-/

set_option autoImplicit false
set_option relaxedAutoImplicit false

namespace ShaderPipeline

open Json (Record)

def Json.texts (xs : List String) : Json :=
  .ofList .string xs

def Json.texts? : Json → Option (List String) :=
  Json.list? Json.string?

namespace InterfaceVariable

def toJson (v : InterfaceVariable) : Json :=
  .object [("name", .string v.name), ("type", .string v.type)]

/-- The interface variable of a record, which may hold other fields too. -/
def ofJson? (v : Json) : Option InterfaceVariable := do
  let r ← v.record? ["name", "type"] false
  pure ⟨← r.required "name" Json.string?, ← r.required "type" Json.string?⟩

end InterfaceVariable

namespace StageSource

def toJson (s : StageSource) : Json :=
  .object [("stage", .string s.stage.flags), ("body", .string s.body.text)]

def ofJson? (v : Json) : Option StageSource := do
  let r ← v.record? ["stage", "body"] false
  let stage ← (StageSet.ofFlags (← r.required "stage" Json.string?)).toOption
  pure ⟨stage, ⟨← r.required "body" Json.string?⟩⟩

end StageSource

namespace ShaderGroup

def fieldNames : List String :=
  ["name", "stages", "extensions", "tags", "vertex_inputs", "varyings", "fragment_outputs"]

def toJson (g : ShaderGroup) : Json :=
  .object
    [("name", .string g.name),
      ("stages", .ofList StageSource.toJson g.stages),
      ("extensions", .texts g.extensions),
      ("tags", .texts g.tags),
      ("vertex_inputs", .ofList InterfaceVariable.toJson g.vertexInputs),
      ("varyings", .ofList InterfaceVariable.toJson g.varyings),
      ("fragment_outputs", .ofList InterfaceVariable.toJson g.fragmentOutputs)]

def ofJson? (v : Json) : Option ShaderGroup := do
  let r ← v.record? fieldNames false
  pure
    { name := ← r.required "name" Json.string?
      stages := ← r.required "stages" (Json.list? StageSource.ofJson?)
      extensions := ← r.required "extensions" Json.texts?
      tags := ← r.required "tags" Json.texts?
      vertexInputs := ← r.required "vertex_inputs" (Json.list? InterfaceVariable.ofJson?)
      varyings := ← r.required "varyings" (Json.list? InterfaceVariable.ofJson?)
      fragmentOutputs := ← r.required "fragment_outputs" (Json.list? InterfaceVariable.ofJson?) }

end ShaderGroup

/-- Puts an entry among others that are sorted by key, over one with the same key. -/
def insertByKey {α : Type} (key : String) (value : α) : List (String × α) → List (String × α)
  | [] => [(key, value)]
  | e :: es =>
      if key < e.1 then (key, value) :: e :: es
      else if key == e.1 then (key, value) :: es
      else e :: insertByKey key value es

/-- The entries of a JSON object with texts as values, sorted by key; of equal keys the last one counts. -/
def Json.sortedTexts? (v : Json) : Option (List (String × String)) := do
  let entries ← v.members? Json.string?
  pure (entries.foldl (fun sorted e => insertByKey e.1 e.2 sorted) [])

namespace Resource

def fieldNames : List String :=
  ["name", "kind", "binding", "group", "format", "dimension", "is_array", "array_size",
    "qualifiers", "shader_qualifiers", "layout", "attachment_index", "tags"]

def toJson (r : Resource) : Json :=
  .object
    [("name", .string r.name),
      ("kind", .string r.kind.name),
      ("binding", .ofNat r.binding),
      ("group", .string r.group),
      ("format", .string r.format.name),
      ("dimension", .string r.dimension.name),
      ("is_array", .bool r.isArray),
      ("array_size", .ofNat r.arraySize),
      ("qualifiers", .string r.qualifiers),
      ("shader_qualifiers", .object (r.shaderQualifiers.map fun q => (q.1, .string q.2))),
      ("layout", .string r.layout),
      ("attachment_index", .ofNat r.attachmentIndex),
      ("tags", .texts r.tags)]

def ofJson? (v : Json) : Option Resource := do
  let r ← v.record? fieldNames false
  pure
    { name := ← r.required "name" Json.string?
      kind := ← r.required "kind" fun v => v.choice?.bind DescriptorKind.ofName?
      binding := ← r.required "binding" Json.word?
      group := ← r.required "group" Json.string?
      format := ← r.required "format" fun v => v.choice?.bind Format.ofName?
      dimension := ← r.required "dimension" fun v => v.choice?.bind ImageDimension.ofName?
      isArray := ← r.required "is_array" Json.bool?
      arraySize := ← r.required "array_size" Json.word?
      qualifiers := ← r.required "qualifiers" Json.string?
      shaderQualifiers := ← r.required "shader_qualifiers" Json.sortedTexts?
      layout := ← r.required "layout" Json.string?
      attachmentIndex := ← r.required "attachment_index" Json.word?
      tags := ← r.required "tags" Json.texts? }

end Resource

namespace ResourceGroup

def ofJson? (v : Json) : Option ResourceGroup := do
  let r ← v.record? ["name", "resources", "tags"] false
  pure
    { name := ← r.required "name" Json.string?
      resources := ← r.required "resources" (Json.list? Resource.ofJson?)
      tags := ← r.required "tags" Json.texts? }

end ResourceGroup

end ShaderPipeline

import ShaderPipeline.Catalog.Record
import ShaderPipeline.Json.Reader

/-!
Catalog documents.

A document is a JSON record with the two sections `shader_groups` and `resource_groups`; its records
hold no fields but the known ones, and most fields have defaults.  The words for stages, kinds, formats and
dimensions are resolved after the whole document has been read: shaders first, then resources.
-/

set_option autoImplicit false
set_option relaxedAutoImplicit false

namespace ShaderPipeline

structure StageEntry where
  stage : String
  body : String

structure ShaderEntry where
  name : String
  stages : List StageEntry
  extensions : List String
  tags : List String
  vertexInputs : List InterfaceVariable
  varyings : List InterfaceVariable
  fragmentOutputs : List InterfaceVariable

structure ResourceEntry where
  name : String
  kind : String
  binding : Nat
  format : Option String
  dimension : Option String
  arraySize : Option Nat
  unbounded : Bool
  qualifiers : String
  shaderQualifiers : List (String × String)
  layout : String
  attachmentIndex : Nat
  tags : List String

structure ResourceGroupEntry where
  name : String
  tags : List String
  resources : List ResourceEntry

/-- A document, in which either section may be absent. -/
structure CatalogDocument where
  shaderGroups : Option (List ShaderEntry)
  resourceGroups : Option (List ResourceGroupEntry)

def StageEntry.ofJson? (v : Json) : Option StageEntry := do
  let r ← v.record? ["stage", "body"] true
  pure ⟨← r.required "stage" Json.string?, ← r.required "body" Json.string?⟩

def ShaderEntry.ofJson? (v : Json) : Option ShaderEntry := do
  let r ← v.record? ShaderGroup.fieldNames true
  let declared := Json.list? InterfaceVariable.ofJson?
  pure
    { name := ← r.required "name" Json.string?
      stages := ← r.required "stages" (Json.list? StageEntry.ofJson?)
      extensions := ← r.defaulted "extensions" [] Json.texts?
      tags := ← r.defaulted "tags" [] Json.texts?
      vertexInputs := ← r.defaulted "vertex_inputs" [] declared
      varyings := ← r.defaulted "varyings" [] declared
      fragmentOutputs := ← r.defaulted "fragment_outputs" [] declared }

def ResourceEntry.fieldNames : List String :=
  ["name", "kind", "binding", "format", "dimension", "array_size", "unbounded", "qualifiers",
    "shader_qualifiers", "layout", "attachment_index", "tags"]

def ResourceEntry.ofJson? (v : Json) : Option ResourceEntry := do
  let r ← v.record? fieldNames true
  pure
    { name := ← r.required "name" Json.string?
      kind := ← r.required "kind" Json.string?
      binding := ← r.defaulted "binding" 0 Json.word?
      format := ← r.defaulted "format" none (Json.nullable? Json.string?)
      dimension := ← r.defaulted "dimension" none (Json.nullable? Json.string?)
      arraySize := ← r.defaulted "array_size" none (Json.nullable? Json.word?)
      unbounded := ← r.defaulted "unbounded" false Json.bool?
      qualifiers := ← r.defaulted "qualifiers" "" Json.string?
      shaderQualifiers := ← r.defaulted "shader_qualifiers" [] Json.sortedTexts?
      layout := ← r.defaulted "layout" "" Json.string?
      attachmentIndex := ← r.defaulted "attachment_index" 0 Json.word?
      tags := ← r.defaulted "tags" [] Json.texts? }

def ResourceGroupEntry.ofJson? (v : Json) : Option ResourceGroupEntry := do
  let r ← v.record? ["name", "tags", "resources"] true
  pure
    { name := ← r.required "name" Json.string?
      tags := ← r.defaulted "tags" [] Json.texts?
      resources := ← r.defaulted "resources" [] (Json.list? ResourceEntry.ofJson?) }

def CatalogDocument.ofJson? (v : Json) : Option CatalogDocument := do
  let r ← v.record? ["shader_groups", "resource_groups"] true
  pure
    { shaderGroups := ← r.optional "shader_groups" (Json.list? ShaderEntry.ofJson?)
      resourceGroups := ← r.optional "resource_groups" (Json.list? ResourceGroupEntry.ofJson?) }

/-- The stage that an entry stands for; its body lies under the given root. -/
def StageEntry.resolve (e : StageEntry) (shader : String) (root : Path) :
    Except CatalogError StageSource :=
  match Stage.ofWord? e.stage with
  | some s => .ok ⟨.of s, root.join e.body⟩
  | none => .error (.invalidValue shader "stage" e.stage)

def ShaderEntry.resolve (e : ShaderEntry) (root : Path) : Except CatalogError ShaderGroup := do
  let stages ← e.stages.mapM (·.resolve e.name root)
  pure ⟨e.name, stages, e.extensions, e.tags, e.vertexInputs, e.varyings, e.fragmentOutputs⟩

namespace ResourceEntry

def owner (e : ResourceEntry) (group : String) : String :=
  group ++ "." ++ e.name

def resolveKind (e : ResourceEntry) (group : String) : Except CatalogError DescriptorKind :=
  match DescriptorKind.ofWord? e.kind with
  | some k => .ok k
  | none => .error (.invalidValue (e.owner group) "kind" e.kind)

/-- The format that an entry names, or the unknown one. -/
def resolveFormat (e : ResourceEntry) (group : String) : Except CatalogError Format :=
  match e.format with
  | none => .ok .unknown
  | some word =>
      match Format.ofCatalogName? word with
      | some f => .ok f
      | none => .error (.invalidValue (e.owner group) "format" word)

/-- The dimension that an entry names, or the default one. -/
def resolveDimension (e : ResourceEntry) (group : String) : Except CatalogError ImageDimension :=
  match e.dimension with
  | none => .ok default
  | some word =>
      match ImageDimension.ofName? word with
      | some d => .ok d
      | none => .error (.invalidValue (e.owner group) "dimension" word)

/-- Whether an entry is an array, and how long; a length excludes being unbounded and is positive. -/
def resolveArray (e : ResourceEntry) (group : String) : Except CatalogError (Bool × Nat) :=
  match e.unbounded, e.arraySize with
  | true, none => .ok (true, 0)
  | false, none => .ok (false, 0)
  | true, some size => .error (.invalidValue (e.owner group) "array_size" (toString size))
  | false, some size =>
      if size = 0 then .error (.invalidValue (e.owner group) "array_size" (toString size))
      else .ok (true, size)

def resolve (e : ResourceEntry) (group : String) : Except CatalogError Resource := do
  let kind ← e.resolveKind group
  let format ← e.resolveFormat group
  let dimension ← e.resolveDimension group
  let (isArray, arraySize) ← e.resolveArray group
  pure
    { name := e.name, kind, binding := e.binding, group, format, dimension, isArray, arraySize
      qualifiers := e.qualifiers, shaderQualifiers := e.shaderQualifiers, layout := e.layout
      attachmentIndex := e.attachmentIndex, tags := e.tags }

end ResourceEntry

def ResourceGroupEntry.resolve (e : ResourceGroupEntry) : Except CatalogError ResourceGroup := do
  let resources ← e.resources.mapM (·.resolve e.name)
  pure ⟨e.name, resources, e.tags⟩

namespace Catalog

/-- The catalog that a document stands for; bodies lie under the given root. -/
def ofDocument (d : CatalogDocument) (root : Path) : Except CatalogError Catalog := do
  let some shaders := d.shaderGroups | throw (.missingSection "shader_groups")
  let some resources := d.resourceGroups | throw (.missingSection "resource_groups")
  let shaders ← shaders.mapM (·.resolve root)
  let resources ← resources.mapM ResourceGroupEntry.resolve
  ofGroups shaders resources

def ofJson (v : Json) (root : Path) : Except CatalogError Catalog :=
  match CatalogDocument.ofJson? v with
  | some d => ofDocument d root
  | none => .error .malformed

def ofText (text : String) (root : Path) : Except CatalogError Catalog :=
  match Json.read? text with
  | some v => ofJson v root
  | none => .error .malformed

/-- The catalog of the document at a path; bodies lie in the directory of the document. -/
def load (files : FileTree) (path : Path) : Except CatalogError Catalog :=
  match files.text path with
  | .ok text => ofText text (path.parent?.getD ⟨"."⟩)
  | .error _ => .error (.unreadable path)

end Catalog

end ShaderPipeline

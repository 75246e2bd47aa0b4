import ShaderPipeline.Descriptor
import ShaderPipeline.Diagnostic
import ShaderPipeline.FileTree
import ShaderPipeline.Format
import ShaderPipeline.Stage

/-!
The resource catalog: groups of resources, and shaders with their stages.

A resource group is laid out as one descriptor set.  A catalog is accepted when its names are distinct,
when the resources of a group that take bindings have distinct ones, and when the stages of each shader
are single and distinct.
-/

set_option autoImplicit false
set_option relaxedAutoImplicit false

namespace ShaderPipeline

/-- Names a resource by its group and its name in the group. -/
structure ResourceKey where
  group : String
  name : String
  deriving DecidableEq, Repr

namespace ResourceKey

def display (k : ResourceKey) : String :=
  k.group ++ "." ++ k.name

/-- Whether a key comes no later than another: by group, then by name. -/
def atMost (a b : ResourceKey) : Bool :=
  a.group < b.group || (a.group == b.group && a.name ≤ b.name)

end ResourceKey

structure Resource where
  /-- Also the name under which shaders see the resource. -/
  name : String
  kind : DescriptorKind
  binding : Nat
  group : String
  format : Format
  dimension : ImageDimension
  isArray : Bool
  /-- The length of an array; zero leaves it unbounded. -/
  arraySize : Nat
  /-- Memory qualifiers for every shader. -/
  qualifiers : String
  /-- Further memory qualifiers for single shaders, by increasing shader name. -/
  shaderQualifiers : List (String × String)
  /-- The members of a buffer block, as they are to be declared. -/
  layout : String
  attachmentIndex : Nat
  tags : List String
  deriving DecidableEq, Repr

namespace Resource

def key (r : Resource) : ResourceKey :=
  ⟨r.group, r.name⟩

def isUnbounded (r : Resource) : Bool :=
  r.isArray && r.arraySize == 0

/-- How many descriptors a resource takes; zero if it is unbounded. -/
def descriptorCount (r : Resource) : Nat :=
  if r.isArray then r.arraySize else 1

def qualifiersFor (r : Resource) (shader : String) : String :=
  match r.shaderQualifiers.find? (·.1 == shader) with
  | some (_, extra) => if r.qualifiers == "" then extra else r.qualifiers ++ " " ++ extra
  | none => r.qualifiers

end Resource

/-- Resources that are laid out as one descriptor set. -/
structure ResourceGroup where
  name : String
  resources : List Resource
  tags : List String
  deriving DecidableEq, Repr

namespace ResourceGroup

def resource? (g : ResourceGroup) (name : String) : Option Resource :=
  g.resources.find? (·.name == name)

end ResourceGroup

/-- A variable that a stage passes to or takes from another stage. -/
structure InterfaceVariable where
  name : String
  type : String
  deriving DecidableEq, Repr

/-- A stage of a shader and the file that holds its body. -/
structure StageSource where
  stage : StageSet
  body : Path
  deriving DecidableEq, Repr

/-- A shader: its stages, and what they exchange unless a body says otherwise. -/
structure ShaderGroup where
  name : String
  stages : List StageSource
  extensions : List String
  tags : List String
  vertexInputs : List InterfaceVariable
  varyings : List InterfaceVariable
  fragmentOutputs : List InterfaceVariable
  deriving DecidableEq, Repr

namespace ShaderGroup

/-- A shader of which only the name is known. -/
def named (name : String) : ShaderGroup :=
  ⟨name, [], [], [], [], [], []⟩

/-- Whether a stage takes part in the chain of stages that pass variables on. -/
def standsAlone (stage : StageSet) : Bool :=
  stage == .of .compute || stage == .of .task

def defaultInputs (g : ShaderGroup) (stage : StageSet) : List InterfaceVariable :=
  if stage == .of .vertex then g.vertexInputs
  else if standsAlone stage then []
  else g.varyings

def defaultOutputs (g : ShaderGroup) (stage : StageSet) : List InterfaceVariable :=
  if stage == .of .fragment then g.fragmentOutputs
  else if standsAlone stage then []
  else g.varyings

end ShaderGroup

structure Catalog where
  shaderGroups : List ShaderGroup
  resourceGroups : List ResourceGroup
  deriving DecidableEq, Repr

inductive CatalogError where
  | unreadable (path : Path)
  | malformed
  | missingSection (name : String)
  | duplicateName (what name : String)
  | duplicateBinding (group : String) (binding : Nat) (first second : String)
  | invalidValue (owner field value : String)
  deriving DecidableEq, Repr

namespace CatalogError

def kind : CatalogError → ErrorKind
  | unreadable _ => .catalogIo
  | malformed => .catalogParse
  | missingSection _ => .catalogMissingSection
  | duplicateName _ _ | duplicateBinding _ _ _ _ => .catalogDuplicateName
  | invalidValue _ _ _ => .catalogInvalidValue

def message : CatalogError → String
  | unreadable path => s!"the catalog document {path.display} could not be read"
  | malformed => "the catalog document could not be parsed"
  | missingSection name => s!"the catalog document is missing the `{name}` section"
  | duplicateName what name => s!"duplicate {what} `{name}`"
  | duplicateBinding group binding first second =>
      s!"resources `{first}` and `{second}` in group `{group}` share binding {binding}"
  | invalidValue owner field value => s!"invalid value `{value}` for `{field}` in `{owner}`"

instance : Reportable CatalogError :=
  ⟨kind, message⟩

end CatalogError

namespace Catalog

def empty : Catalog :=
  ⟨[], []⟩

/-- Refuses the first resource that has the name or, if both take one, the binding of an earlier resource
of the group. -/
def checkResources (group : String) :
    List Resource → List Resource → Except CatalogError Unit
  | _, [] => .ok ()
  | earlier, r :: rest =>
      if earlier.any (·.name == r.name) then
        .error (.duplicateName "resource" (group ++ "." ++ r.name))
      else
        match earlier.find? fun e =>
            e.kind.isDescriptor && r.kind.isDescriptor && e.binding == r.binding with
        | some e => .error (.duplicateBinding group r.binding e.name r.name)
        | none => checkResources group (earlier ++ [r]) rest

/-- Refuses the first resource group that has the name of an earlier one or a resource at fault. -/
def checkResourceGroups : List String → List ResourceGroup → Except CatalogError Unit
  | _, [] => .ok ()
  | earlier, g :: rest =>
      if earlier.contains g.name then .error (.duplicateName "resource group" g.name)
      else do
        checkResources g.name [] g.resources
        checkResourceGroups (earlier ++ [g.name]) rest

/-- Refuses the first stage of a shader that is not single or came before. -/
def checkStages (shader : String) : List StageSet → List StageSource → Except CatalogError Unit
  | _, [] => .ok ()
  | earlier, s :: rest =>
      if !s.stage.isSingle || earlier.contains s.stage then
        .error (.invalidValue shader "stage" s.stage.display)
      else checkStages shader (earlier ++ [s.stage]) rest

/-- Refuses the first shader that has the name of an earlier one or a stage at fault. -/
def checkShaderGroups : List String → List ShaderGroup → Except CatalogError Unit
  | _, [] => .ok ()
  | earlier, g :: rest =>
      if earlier.contains g.name then .error (.duplicateName "shader group" g.name)
      else do
        checkStages g.name [] g.stages
        checkShaderGroups (earlier ++ [g.name]) rest

def ofGroups (shaders : List ShaderGroup) (resources : List ResourceGroup) :
    Except CatalogError Catalog := do
  checkResourceGroups [] resources
  checkShaderGroups [] shaders
  pure ⟨shaders, resources⟩

def shaderGroup? (c : Catalog) (name : String) : Option ShaderGroup :=
  c.shaderGroups.find? (·.name == name)

def resourceGroup? (c : Catalog) (name : String) : Option ResourceGroup :=
  c.resourceGroups.find? (·.name == name)

def resource? (c : Catalog) (key : ResourceKey) : Option Resource :=
  (c.resourceGroup? key.group).bind (·.resource? key.name)

/-- The resource with a given name in the first of some groups that has one. -/
def findResource? (c : Catalog) (groups : List String) (name : String) : Option Resource :=
  groups.findSome? fun group => (c.resourceGroup? group).bind (·.resource? name)

end Catalog

end ShaderPipeline

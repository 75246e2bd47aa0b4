import ShaderPipeline.Catalog.Basic
import ShaderPipeline.Source.Directive
import ShaderPipeline.Text.Line

/-!
Declarations of resources, and the blocks of declarations that bodies ask for.

A body asks for a whole resource group.  The groups of a body take descriptor sets in the order of their
first use; asking for a group again changes nothing.
-/

set_option autoImplicit false
set_option relaxedAutoImplicit false

namespace ShaderPipeline

namespace Resource

/-- The lines between the braces of a block: trimmed, indented, and without empty ones. -/
def memberLines (layout : String) : String :=
  String.join (((Text.lines layout).map Text.trim |>.filter (· != "")).map
    fun line => "    " ++ line ++ "\n")

/-- What follows a block or a struct name: the members between braces. -/
def braced (inner : String) : String :=
  "\x7b\n" ++ inner ++ "\x7d"

def arraySuffix (r : Resource) : String :=
  if !r.isArray then ""
  else if r.arraySize = 0 then "[]"
  else s!"[{r.arraySize}]"

def qualifierText (qualifiers : String) : String :=
  if Text.isBlankText qualifiers then "" else Text.trim qualifiers ++ " "

/-- The declaration of a resource in a descriptor set, as a shader uses it.  Acceleration structures have
none. -/
def declaration? (r : Resource) (set : Nat) (shader : String) : Option String :=
  let slot := s!"set = {set}, binding = {r.binding}"
  let name := r.name
  let array := r.arraySuffix
  let mark := r.format.samplerMark
  let shape := r.dimension.name
  let imageSlot := match r.format.layoutQualifier? with
    | some format => s!"{slot}, {format}"
    | none => slot
  let qualifiers := qualifierText (r.qualifiersFor shader)
  let members := braced (memberLines r.layout)
  match r.kind with
  | .uniformBuffer =>
      some s!"layout({slot}, std140) uniform {name}_block {members} {name}{array};"
  | .storageBuffer =>
      if r.isUnbounded then
        let data := braced s!"    {name}_element {name}_data[];\n"
        some (s!"struct {name}_element {members};\n" ++
          s!"layout({slot}, std430) {qualifiers}buffer {name}_block {data} {name};")
      else some s!"layout({slot}, std430) {qualifiers}buffer {name}_block {members} {name}{array};"
  | .sampler => some s!"layout({slot}) uniform sampler {name}{array};"
  | .combinedImageSampler => some s!"layout({slot}) uniform {mark}sampler{shape} {name}{array};"
  | .sampledImage => some s!"layout({slot}) uniform {mark}texture{shape} {name}{array};"
  | .storageImage =>
      some s!"layout({imageSlot}) {qualifiers}uniform {mark}image{shape} {name}{array};"
  | .uniformTexelBuffer => some s!"layout({slot}) uniform {mark}textureBuffer {name}{array};"
  | .storageTexelBuffer =>
      some s!"layout({imageSlot}) {qualifiers}uniform {mark}imageBuffer {name}{array};"
  | .inputAttachment =>
      let index := s!"input_attachment_index = {r.attachmentIndex}"
      some s!"layout({index}, {slot}) uniform {mark}subpassInput {name}{array};"
  | .pushConstant => some s!"layout(push_constant) uniform {name}_block {members} {name};"
  | .accelerationStructure => none

/-- The declaration of a resource, or the error that it has none. -/
def declare (r : Resource) (set : Nat) (shader : String) : Except SourceError String :=
  match r.declaration? set shader with
  | some text => .ok text
  | none => .error (.undeclarable r.group r.name r.kind)

end Resource

/-- The declarations of a resource group in one descriptor set. -/
structure ResourceBlock where
  group : String
  set : Nat
  text : String
  deriving DecidableEq, Repr

namespace ResourceBlock

def ofGroup (g : ResourceGroup) (set : Nat) (shader : String) :
    Except SourceError ResourceBlock := do
  let declarations ← g.resources.mapM (·.declare set shader)
  pure ⟨g.name, set, Text.joinLines declarations⟩

def ofName (catalog : Catalog) (name : String) (set : Nat) (shader : String) :
    Except SourceError ResourceBlock :=
  match catalog.resourceGroup? name with
  | some g => ofGroup g set shader
  | none => .error (.groupNotFound name)

/-- The lines without block directives, and the blocks they ask for after those asked for before.  The next
block takes the set after the last one. -/
def extractFrom (catalog : Catalog) (shader : String) :
    List ResourceBlock → List String → Except SourceError (List String × List ResourceBlock)
  | blocks, [] => .ok ([], blocks)
  | blocks, line :: rest => do
      match ← (Directive.recognizeBlock line.toList).value? line with
      | none =>
          let (after, blocks) ← extractFrom catalog shader blocks rest
          pure (line :: after, blocks)
      | some name =>
          if blocks.any (·.group == name) then
            let (after, blocks) ← extractFrom catalog shader blocks rest
            pure ("" :: after, blocks)
          else
            let block ← ofName catalog name blocks.length shader
            let (after, blocks) ← extractFrom catalog shader (blocks ++ [block]) rest
            pure ("" :: after, blocks)

/-- The lines without block directives, and the blocks they ask for. -/
def extract (catalog : Catalog) (shader : String) (lines : List String) :
    Except SourceError (List String × List ResourceBlock) :=
  extractFrom catalog shader [] lines

end ResourceBlock

end ShaderPipeline

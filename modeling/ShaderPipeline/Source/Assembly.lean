import ShaderPipeline.Source.Declaration
import ShaderPipeline.Source.Extraction
import ShaderPipeline.Source.Splice

/-!
The full source of a stage.

Includes are spliced into the body, directives are taken out of it, and what they ask for is written as
fragments before the body.  Fragments are ordered by kind; the source is their concatenation.
-/

set_option autoImplicit false
set_option relaxedAutoImplicit false

namespace ShaderPipeline

inductive FragmentKind where
  | version | extension | interfaceInput | interfaceOutput | perVertex | specConstant
  | resourceBlock | body
  deriving DecidableEq, Repr

namespace FragmentKind

def ordered : List FragmentKind :=
  [version, extension, interfaceInput, interfaceOutput, perVertex, specConstant, resourceBlock, body]

def rank (kind : FragmentKind) : Nat :=
  ordered.idxOf kind

def name : FragmentKind → String
  | version => "Version"
  | extension => "Extension"
  | interfaceInput => "InterfaceInput"
  | interfaceOutput => "InterfaceOutput"
  | perVertex => "PerVertex"
  | specConstant => "SpecConstant"
  | resourceBlock => "ResourceBlock"
  | body => "Body"

end FragmentKind

structure Fragment where
  kind : FragmentKind
  text : String
  deriving DecidableEq, Repr

namespace Fragment

/-- Fragments by kind; those of one kind keep their order. -/
def arrange (fragments : List Fragment) : List Fragment :=
  FragmentKind.ordered.flatMap fun kind => fragments.filter (·.kind == kind)

def dropNewline (cs : List Char) : List Char :=
  if cs.getLast? = some '\n' then cs.dropLast else cs

/-- A fragment as it stands in the source: it ends in a newline. -/
def written (f : Fragment) : String :=
  String.ofList (dropNewline f.text.toList ++ ['\n'])

/-- Puts a fragment behind all those that are of its kind or of one before it. -/
def insert (f : Fragment) : List Fragment → List Fragment
  | [] => [f]
  | g :: rest => if f.kind.rank < g.kind.rank then f :: g :: rest else g :: insert f rest

end Fragment

/-- The fragments of a source in the order in which they are made. -/
structure SourceAssembly where
  fragments : List Fragment

namespace SourceAssembly

def empty : SourceAssembly :=
  ⟨[]⟩

def push (a : SourceAssembly) (kind : FragmentKind) (text : String) : SourceAssembly :=
  ⟨a.fragments ++ [⟨kind, text⟩]⟩

def pushAll (a : SourceAssembly) (fragments : List Fragment) : SourceAssembly :=
  fragments.foldl (fun a f => a.push f.kind f.text) a

/-- The fragments sorted by kind, one after another, each behind those that it may follow. -/
def sorted (a : SourceAssembly) : List Fragment :=
  a.fragments.foldl (fun sorted f => f.insert sorted) []

/-- The text: the sorted fragments written one behind the other. -/
def text (a : SourceAssembly) : String :=
  a.sorted.foldl (fun text f => text ++ f.written) ""

end SourceAssembly

/-- What the sources of a program are generated under. -/
structure SourceOptions where
  libraryRoot : Option Path
  defaultVersion : Nat
  defaultExtensions : List String
  lineDirectives : Bool
  deriving Repr

namespace SourceOptions

/-- The options that hold unless others are given. -/
def standard : SourceOptions :=
  ⟨none, 450, [], false⟩

/-- The standard options with the library root that an environment variable may hold. -/
def ofEnvironment (key : String) (environment : String → Option String) : SourceOptions :=
  { standard with
    libraryRoot := ((environment key).filter (· != "")).map Path.mk }

end SourceOptions

def lineMarkExtension : String :=
  "GL_GOOGLE_CPP_STYLE_LINE_DIRECTIVE"

structure StageRequest where
  shader : ShaderGroup
  stage : StageSet
  path : Path
  /-- Extensions beyond those of the options and of the shader. -/
  extensions : List String
  includePaths : List Path

namespace StageRequest

/-- The declarations of interface variables, each at the location of its position. -/
def declareInterface (direction namePrefix suffix : String) (vs : List InterfaceVariable) :
    String :=
  Text.unlines (vs.zipIdx.map fun (v, location) =>
    s!"layout(location = {location}) {direction} {v.type} {namePrefix}{v.name}{suffix};")

/-- What stands before the names of inputs: a mark where an output may have the same name. -/
def inputMark (shader : ShaderGroup) (stage : StageSet) : String :=
  if stage.hasArrayedInputs && !(shader.defaultOutputs stage).isEmpty then "in_" else ""

def inputText (shader : ShaderGroup) (stage : StageSet) : String :=
  declareInterface "in" (inputMark shader stage) (if stage.hasArrayedInputs then "[]" else "")
    (shader.defaultInputs stage)

def outputText (shader : ShaderGroup) (stage : StageSet) : String :=
  declareInterface "out" "" (if stage.hasArrayedOutputs then "[]" else "")
    (shader.defaultOutputs stage)

def perVertexText : String :=
  "out gl_PerVertex \x7b\n    vec4 gl_Position;\n\x7d;"

/-- The interface fragments of a stage: the override if there is one, else the default interface. -/
def interfaceFragments (shader : ShaderGroup) (stage : StageSet) (asked : InterfaceRequest) :
    List Fragment :=
  match asked.override with
  | some lines => [⟨.interfaceInput, Text.joinLines lines⟩]
  | none =>
      let dropsOutputs := asked.noFragmentOutput && stage == .of .fragment
      (if (shader.defaultInputs stage).isEmpty then []
        else [⟨.interfaceInput, inputText shader stage⟩]) ++
      (if (shader.defaultOutputs stage).isEmpty || dropsOutputs then []
        else [⟨.interfaceOutput, outputText shader stage⟩]) ++
      (if stage.hasPerVertexOutput then [⟨.perVertex, perVertexText⟩] else [])

/-- The extensions of a stage, each once, in the order in which they are first asked for. -/
def extensionNames (r : StageRequest) (options : SourceOptions) : List String :=
  (options.defaultExtensions ++ r.shader.extensions ++ r.extensions ++
    if options.lineDirectives then [lineMarkExtension] else []).eraseDups

def includePlan (r : StageRequest) (options : SourceOptions) : IncludePlan :=
  ⟨r.includePaths, options.libraryRoot, options.lineDirectives⟩

def bodyText (r : StageRequest) (options : SourceOptions) (rest : String) : String :=
  let body := Text.trimEnd rest
  if options.lineDirectives then lineMark 1 r.path.markName ++ "\n" ++ body else body

end StageRequest

structure AssembledSource where
  /-- The text that its assembly has come to. -/
  text : String
  /-- The pieces of the source, by kind. -/
  fragments : List Fragment
  blocks : List ResourceBlock
  constants : List SourceConstant

namespace AssembledSource

/-- The resource groups of a source; the place of a group is its descriptor set. -/
def resourceGroups (a : AssembledSource) : List String :=
  a.blocks.map (·.group)

end AssembledSource

namespace StageRequest

def assemble (r : StageRequest) (catalog : Catalog) (options : SourceOptions) (files : FileTree)
    (body : String) : Except SourceError AssembledSource := do
  let expanded ← (r.includePlan options).expand files r.path body
  let (version, rest) := Extraction.version (Text.lines expanded)
  let (rest, asked) ← Extraction.interface (Text.lines (Text.unlines rest))
  let (rest, constants) ← Extraction.constants 0 (Text.lines (Text.unlines rest))
  let (rest, blocks) ← ResourceBlock.extract catalog r.shader.name (Text.lines (Text.unlines rest))
  let assembly := SourceAssembly.empty
    |>.push .version (version.getD s!"#version {options.defaultVersion}")
    |>.pushAll ((r.extensionNames options).map fun e => ⟨.extension, s!"#extension {e} : require"⟩)
    |>.pushAll (interfaceFragments r.shader r.stage asked)
    |>.pushAll (constants.map fun c => ⟨.specConstant, c.declaration⟩)
    |>.pushAll (blocks.map fun b => ⟨.resourceBlock, b.text⟩)
    |>.push .body (r.bodyText options (Text.unlines rest))
  pure ⟨assembly.text, Fragment.arrange assembly.fragments, blocks, constants⟩

end StageRequest

end ShaderPipeline

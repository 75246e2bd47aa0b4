import ShaderPipeline.Flags
import ShaderPipeline.Digest.Blake3

/-!
Pipeline stages, sets of stages, and the identities under which stages are kept.

A set of stages is a word with one bit for each stage; bits that stand for no known stage are kept.  An
identity is the hash of a declared name together with a stage set, and identities are ordered by hash
first.
-/

set_option autoImplicit false
set_option relaxedAutoImplicit false

namespace ShaderPipeline

/-- A programmable stage of the graphics or compute pipeline. -/
inductive Stage where
  | vertex | tessControl | tessEvaluation | geometry | fragment | compute | task | mesh
  deriving DecidableEq, Repr

namespace Stage

def bit : Stage → UInt32
  | vertex => 1
  | tessControl => 2
  | tessEvaluation => 4
  | geometry => 8
  | fragment => 16
  | compute => 32
  | task => 64
  | mesh => 128

def byBit : List Stage :=
  [vertex, tessControl, tessEvaluation, geometry, fragment, compute, task, mesh]

def pipeline : List Stage :=
  [vertex, tessControl, tessEvaluation, geometry, task, mesh, fragment, compute]

/-- The four letters that stand for a stage in file extensions and catalogs. -/
def shortName : Stage → String
  | vertex => "vert"
  | tessControl => "tesc"
  | tessEvaluation => "tese"
  | geometry => "geom"
  | fragment => "frag"
  | compute => "comp"
  | task => "task"
  | mesh => "mesh"

def flagName : Stage → String
  | vertex => "VERTEX"
  | tessControl => "TESSELLATION_CONTROL"
  | tessEvaluation => "TESSELLATION_EVALUATION"
  | geometry => "GEOMETRY"
  | fragment => "FRAGMENT"
  | compute => "COMPUTE"
  | task => "TASK"
  | mesh => "MESH"

def aliases : Stage → List String
  | vertex => ["vert", "vertex"]
  | tessControl => ["tesc", "tessellation_control", "hull"]
  | tessEvaluation => ["tese", "tessellation_evaluation", "domain"]
  | geometry => ["geom", "geometry"]
  | fragment => ["frag", "fragment", "pixel"]
  | compute => ["comp", "compute"]
  | task => ["task"]
  | mesh => ["mesh"]

/-- The stage that a word refers to, whatever its case and the blanks around it. -/
def ofWord? (word : String) : Option Stage :=
  byBit.find? (·.aliases.contains (Text.asciiLower (Text.trim word)))

def unknownMessage (word : String) : String :=
  s!"unknown shader stage `{word}`"

end Stage

structure StageSet where
  bits : UInt32
  deriving DecidableEq, Repr, Inhabited

namespace StageSet

def of (s : Stage) : StageSet :=
  ⟨s.bit⟩

def empty : StageSet :=
  ⟨0⟩

def union (a b : StageSet) : StageSet :=
  ⟨a.bits ||| b.bits⟩

def intersects (a b : StageSet) : Bool :=
  a.bits &&& b.bits != 0

def contains (a : StageSet) (s : Stage) : Bool :=
  a.bits &&& s.bit != 0

def isSingle (a : StageSet) : Bool :=
  a.bits != 0 && a.bits &&& (a.bits - 1) == 0

def known : UInt32 :=
  Stage.byBit.foldl (fun bits s => bits ||| s.bit) 0

def isKnown (a : StageSet) : Bool :=
  a.bits &&& ~~~known == 0

def stages (a : StageSet) : List Stage :=
  Stage.pipeline.filter (a.contains ·)

def stage? (a : StageSet) : Option Stage :=
  Stage.byBit.find? (·.bit == a.bits)

def shortName (a : StageSet) : String :=
  match a.stage? with
  | some s => s.shortName
  | none => "mixed"

/-- A set of one bit shows as its short name, another as its stages separated by bars. -/
def display (a : StageSet) : String :=
  if a.isSingle then a.shortName else "|".intercalate (a.stages.map Stage.shortName)

/-- Whether the stage writes positions through the per-vertex output block. -/
def hasPerVertexOutput (a : StageSet) : Bool :=
  a.isSingle && [Stage.vertex, .geometry, .tessEvaluation].any (a.contains ·)

/-- Whether the stage sees its inputs as arrays over the vertices of a primitive. -/
def hasArrayedInputs (a : StageSet) : Bool :=
  a.isSingle && [Stage.geometry, .tessControl, .tessEvaluation].any (a.contains ·)

/-- Whether the stage writes its outputs as arrays over vertices. -/
def hasArrayedOutputs (a : StageSet) : Bool :=
  a.contains .tessControl || a.contains .mesh

def flagNames : Flags.Names :=
  Stage.byBit.map fun s => (s.flagName, s.bit)

def flags (a : StageSet) : String :=
  Flags.render flagNames a.bits

def ofFlags (text : String) : Except Flags.ReadError StageSet :=
  (Flags.read flagNames text).map StageSet.mk

end StageSet

structure Identity where
  hash : UInt64
  stage : StageSet
  deriving DecidableEq, Repr, Inhabited

namespace Identity

def ofName (name : String) (stage : StageSet) : Identity :=
  ⟨Digest.textHash name, stage⟩

/-- An identity shows as its hash in sixteen digits and its stage. -/
def display (i : Identity) : String :=
  Text.hexPadded 16 i.hash.toNat ++ ":" ++ i.stage.display

/-- Whether an identity comes no later than another: by hash, then by stage bits. -/
def atMost (a b : Identity) : Bool :=
  a.hash < b.hash || (a.hash == b.hash && a.stage.bits ≤ b.stage.bits)

def ordered (is : List Identity) : List Identity :=
  (is.mergeSort atMost).eraseDups

end Identity

end ShaderPipeline

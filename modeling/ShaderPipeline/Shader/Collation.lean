import ShaderPipeline.Shader.Basic

/-!
Folding stages into the tables of a shader.

Two usages of one slot become one that has the stages and accesses of both; their kinds must agree.  The
push-constant blocks follow each other in the order of the stages.  A stage that cannot be folded in leaves the
tables as they were.
-/

set_option autoImplicit false
set_option relaxedAutoImplicit false

namespace ShaderPipeline

inductive CollateError where
  | alreadyParsed (identity : Identity)
  | kindConflict (set binding : Nat) (first second : DescriptorKind)
  | pushOverflow (block : String)
  | reflection (error : ReflectError)
  deriving DecidableEq, Repr

namespace CollateError

/-- The kind of a collation error; reflection errors keep theirs. -/
def kind : CollateError → ErrorKind
  | alreadyParsed _ => .stageAlreadyParsed
  | kindConflict _ _ _ _ => .descriptorConflict
  | pushOverflow _ => .pushConstantOverflow
  | reflection error => error.kind

def message : CollateError → String
  | alreadyParsed identity => s!"stage {identity.display} was already parsed"
  | kindConflict set binding first second =>
      s!"set {set} binding {binding} is used as {first.name} and as {second.name}"
  | pushOverflow block =>
      s!"the push-constant block `{block}` does not fit in 32 bits when stacked"
  | reflection error => s!"reflection error: {error.message}"

instance : Reportable CollateError :=
  ⟨kind, message⟩

end CollateError

namespace Usage

/-- The order in which the names of one slot are preferred: by key, none first, then by name. -/
def namingOrder (a b : Usage) : Ordering :=
  (compare a.resource b.resource).then (compare a.name b.name)

def merge (a b : Usage) : Usage :=
  let named := if (namingOrder b a).isLT then b else a
  { a with
    stages := a.stages.union b.stages
    access := a.access.union b.access
    count := max a.count b.count
    name := named.name
    resource := named.resource }

/-- A usage together with the one at its slot, if there is one. -/
def onto (u : Usage) : Option Usage → Usage
  | some known => known.merge u
  | none => u

end Usage

/-- The table with what a function makes of the value under a key, or of none, under that key. -/
def NumberTable.change {α : Type} (key : Nat) (f : Option α → α) : NumberTable α → NumberTable α
  | [] => [(key, f none)]
  | (k, a) :: rest =>
      match compare key k with
      | .lt => (key, f none) :: (k, a) :: rest
      | .eq => (k, f (some a)) :: rest
      | .gt => (k, a) :: change key f rest

def DescriptorSet.enter (d : DescriptorSet) (u : Usage) : DescriptorSet :=
  { d with bindings := d.bindings.change u.binding u.onto }

/-- The sets with one more usage, in a new set if there is none with its number. -/
def SetTable.enter (t : SetTable) (u : Usage) : SetTable :=
  t.change u.set fun d => (d.getD (.empty u.set)).enter u

namespace PushBlock

/-- The place of a block among stages: that of the first stage that has it. -/
def rank (stages : List StageSet) (b : PushBlock) : Nat :=
  stages.findIdx (b.stages.intersects ·)

def placeFrom : Nat → List PushBlock → Except CollateError (List PushBlock)
  | _, [] => .ok []
  | offset, b :: rest =>
      match b.size?.bind fun size => Spirv.inWord? (offset + size) with
      | none => .error (.pushOverflow b.name)
      | some next => do pure ({ b with offset } :: (← placeFrom next rest))

def stack (stages : List StageSet) (blocks : List PushBlock) :
    Except CollateError (List PushBlock) :=
  placeFrom 0 (blocks.mergeSort fun a b => rank stages a ≤ rank stages b)

end PushBlock

/-- Puts a constant among others that are ordered by number, unless there is one with its number. -/
def SpecConstant.insert (c : SpecConstant) : List SpecConstant → List SpecConstant
  | [] => [c]
  | d :: ds =>
      if c.id < d.id then c :: d :: ds
      else if c.id = d.id then d :: ds
      else d :: insert c ds

namespace Shader

def checkUnparsed (s : Shader) (i : Identity) : Except CollateError Unit :=
  if s.parsed.any (·.stage == i.stage) then .error (.alreadyParsed i) else .ok ()

/-- Refuses the first usage whose slot has a usage of another kind. -/
def checkKinds (s : Shader) : List Usage → Except CollateError Unit
  | [] => .ok ()
  | u :: rest =>
      match s.usageAt? u.slot with
      | some known =>
          if known.kind = u.kind then checkKinds s rest
          else .error (.kindConflict u.set u.binding known.kind u.kind)
      | none => checkKinds s rest

/-- The stages with one more, unless it is among them. -/
def stagesWith (s : Shader) (stage : StageSet) : List StageSet :=
  if s.stages.contains stage then s.stages else s.stages ++ [stage]

def pushBlocksWith (s : Shader) (stage : StageSet) (block : Option PushBlock) :
    Except CollateError (List PushBlock) :=
  match block with
  | some block => PushBlock.stack (s.stagesWith stage) (s.pushBlocks ++ [block])
  | none => .ok s.pushBlocks

def setAttributes (table : AttributeTable) (stage : StageSet) (attributes : List Attribute) :
    AttributeTable :=
  table.filter (·.1 != stage) ++ [(stage, attributes)]

def collate (s : Shader) (i : Identity) (r : StageReflection) : Except CollateError Shader := do
  s.checkUnparsed i
  s.checkKinds r.usages
  let pushBlocks ← s.pushBlocksWith i.stage r.pushConstant
  pure
    { s with
      stages := s.stagesWith i.stage
      parsed := s.parsed ++ [i]
      setTable := r.usages.foldl .enter s.setTable
      pushBlocks
      inputTable := setAttributes s.inputTable i.stage r.inputs
      outputTable := setAttributes s.outputTable i.stage r.outputs
      constants := r.constants.foldl (fun cs c => c.insert cs) s.constants }

def parse (s : Shader) (c : StageContext) (i : Identity) (binary : List UInt32) :
    Except CollateError Shader := do
  s.checkUnparsed i
  let r ← (StageReflection.ofBinary c i.stage binary).mapError .reflection
  s.collate i r

end Shader

end ShaderPipeline

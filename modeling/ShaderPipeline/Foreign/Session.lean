import ShaderPipeline.Foreign.Buffer
import ShaderPipeline.Shader.Layout

/-!
Calls on a handle to a pack and a handle to a processed shader.

Both handles are null at first.  Every call checks its parameters in order, so that the first one at fault is
reported.
-/

set_option autoImplicit false
set_option relaxedAutoImplicit false

namespace ShaderPipeline

structure OpenPack where
  pack : Pack
  cache : SourceCache

/-- What calls work on: the program's names, its environment and files, and what the handles stand for. -/
structure ForeignSession where
  installation : Installation
  environment : String → Option String
  files : FileTree
  requests : List CompileRequest
  pack : Option OpenPack
  shader : Option ProcessedShader

structure LoadOptions where
  persistent : Bool
  deriving DecidableEq, Repr

structure BindingRecord where
  binding : Nat
  kind : Nat
  count : Nat
  stages : UInt32
  access : UInt32
  deriving DecidableEq, Repr

structure AttributeRecord where
  location : Nat
  binding : Nat
  format : Nat
  offset : Nat
  deriving DecidableEq, Repr

structure ConstantRecord where
  id : Nat
  kind : Nat
  value : UInt64
  deriving DecidableEq, Repr

/-- The number of a scalar kind: its place among all. -/
def ScalarKind.number (k : ScalarKind) : Nat :=
  all.idxOf k

namespace ForeignSession

def start (n : Installation) (environment : String → Option String) (files : FileTree) :
    ForeignSession :=
  ⟨n, environment, files, [], none, none⟩

/-- What a handle stands for; there must be a handle, and it must not be null. -/
def deref {α : Type} (hasHandle : Bool) (handle : Option α) (parameter : String) :
    Except ForeignError α := do
  requireGiven hasHandle parameter
  match handle with
  | some a => pure a
  | none => throw (.invalidParameter parameter)

def singleStage (bits : UInt32) : Except ForeignError StageSet :=
  if (StageSet.mk bits).isKnown && (StageSet.mk bits).isSingle then .ok ⟨bits⟩
  else .error (.invalidParameter "stage")

/-- The options of a pack: those of the environment, over which a caller's go. -/
def packOptions (s : ForeignSession) (options : Option LoadOptions) : PackOptions :=
  let standard := s.installation.options s.environment
  match options with
  | some given => { standard with cache := { standard.cache with persistent := given.persistent } }
  | none => standard

def loadArguments (path : TextArgument) (hasOut : Bool) (compiler : Option Compiler) :
    Except ForeignError (Path × Compiler) := do
  let bytes ← path.bytes "path"
  requireGiven hasOut "out"
  let path ← foreignText bytes
  match compiler with
  | some compiler => pure (⟨path⟩, compiler)
  | none => throw (.invalidParameter "compiler")

/-- A session without a pack; the pack it had is closed. -/
def withoutPack (s : ForeignSession) : ForeignSession :=
  match s.pack with
  | some p => { s with files := p.pack.close s.files, pack := none }
  | none => s

def load (s : ForeignSession) (path : TextArgument) (hasOut : Bool)
    (options : Option LoadOptions) (compiler : Option Compiler) :
    Except ForeignError Unit × ForeignSession :=
  match loadArguments path hasOut compiler with
  | .error e => (.error e, s)
  | .ok (path, compiler) =>
      match Pack.load s.installation s.environment s.files path compiler (s.packOptions options) with
      | (.ok pack, files) =>
          (.ok (), { withoutPack { s with files } with pack := some ⟨pack, .empty⟩ })
      | (.error e, files) => (.error (.pack e), { s with files })

def freePack (s : ForeignSession) (hasHandle : Bool) : Except ForeignError Unit × ForeignSession :=
  match requireGiven hasHandle "pack" with
  | .ok () => (.ok (), s.withoutPack)
  | .error e => (.error e, s)

def freeShader (s : ForeignSession) (hasHandle : Bool) :
    Except ForeignError Unit × ForeignSession :=
  match requireGiven hasHandle "shader" with
  | .ok () => (.ok (), { s with shader := none })
  | .error e => (.error e, s)

def workspace (s : ForeignSession) (p : OpenPack) : Workspace :=
  ⟨s.files, p.cache, s.requests⟩

def after (s : ForeignSession) (p : OpenPack) (w : Workspace) : ForeignSession :=
  { s with files := w.files, requests := w.requests, pack := some { p with cache := w.cache } }

def processArguments (s : ForeignSession) (hasHandle : Bool) (name : TextArgument)
    (hasOut : Bool) : Except ForeignError (OpenPack × String) := do
  let p ← deref hasHandle s.pack "pack"
  let bytes ← name.bytes "name"
  requireGiven hasOut "out"
  pure (p, ← foreignText bytes)

/-- Processes a shader in place of the one that the handle stands for. -/
def process (s : ForeignSession) (hasHandle : Bool) (name : TextArgument) (hasOut : Bool) :
    Except ForeignError Unit × ForeignSession :=
  match s.processArguments hasHandle name hasOut with
  | .error e => (.error e, s)
  | .ok (p, name) =>
      match p.pack.process name (s.workspace p) with
      | (.ok processed, w) => (.ok (), { s.after p w with shader := some processed })
      | (.error e, w) => (.error (.pack e), s.after p w)

/-- The pack and the identity for a call that asks for a text of a stage. -/
def textArguments (s : ForeignSession) (hasHandle : Bool) (name : TextArgument) (stage : UInt32)
    (b : BufferArgument) : Except ForeignError (OpenPack × Identity) := do
  let p ← deref hasHandle s.pack "pack"
  let bytes ← name.bytes "name"
  requireGiven b.hasCell "len"
  let name ← foreignText bytes
  pure (p, .ofName name (← singleStage stage))

def fullSource (s : ForeignSession) (hasHandle : Bool) (name : TextArgument) (stage : UInt32)
    (b : BufferArgument) : Passed UInt8 :=
  b.passFound do
    let (p, i) ← s.textArguments hasHandle name stage b
    match p.cache.fullSource? i with
    | some source => pure (terminatedBytes source)
    | none => throw .notFound

def disassembly (s : ForeignSession) (hasHandle : Bool) (name : TextArgument) (stage : UInt32)
    (b : BufferArgument) : Passed UInt8 × ForeignSession :=
  match s.textArguments hasHandle name stage b with
  | .error e => (b.passFound (.error e), s)
  | .ok (p, i) =>
      let (result, w) := p.pack.disassembly i (s.workspace p)
      (b.passFound ((result.map terminatedBytes).mapError .pack), s.after p w)

def hasStage (s : ForeignSession) (hasHandle : Bool) (stage : UInt32) (hasOut : Bool) :
    Except ForeignError Bool := do
  let p ← deref hasHandle s.shader "shader"
  requireGiven hasOut "out"
  pure (p.hasStage (← singleStage stage))

def items {α : Type} (s : ForeignSession) (hasHandle : Bool) (b : BufferArgument)
    (find : ProcessedShader → Except ForeignError (List α)) : Passed α :=
  b.passFound do
    let p ← deref hasHandle s.shader "shader"
    requireGiven b.hasCell "len"
    find p

def sets (s : ForeignSession) (hasHandle : Bool) (b : BufferArgument) : Passed Nat :=
  s.items hasHandle b fun p => .ok p.shader.setNumbers

def bindingRecord (u : Usage) : BindingRecord :=
  ⟨u.binding, u.kind.code, u.count, u.stages.bits, u.access.bits⟩

def bindings (s : ForeignSession) (hasHandle : Bool) (set : Nat) (b : BufferArgument) :
    Passed BindingRecord :=
  s.items hasHandle b fun p => .ok ((p.shader.setUsages set).map bindingRecord)

def bindingName (s : ForeignSession) (hasHandle : Bool) (set binding : Nat) (b : BufferArgument) :
    Passed UInt8 :=
  s.items hasHandle b fun p =>
    match p.shader.usageAt? (set, binding) with
    | some u => .ok (terminatedBytes u.name)
    | none => .error .notFound

def pushRanges (s : ForeignSession) (hasHandle : Bool) (b : BufferArgument) : Passed PushRange :=
  s.items hasHandle b fun p => .ok p.shader.pushRanges

def attributes (s : ForeignSession) (hasHandle : Bool) (b : BufferArgument) :
    Passed AttributeRecord :=
  s.items hasHandle b fun p => .ok (p.shader.vertexAttributes.map fun a =>
    ⟨a.location, a.binding, a.format.code, a.offset⟩)

/-- The number of bytes of one vertex, which is written once the attributes have been. -/
def stride? (s : ForeignSession) (hasHandle : Bool) (b : BufferArgument) (hasStride : Bool) :
    Option Nat :=
  match (s.attributes hasHandle b).1 with
  | .ok _ => if hasStride then s.shader.map (·.shader.vertexStride) else none
  | .error _ => none

def constants (s : ForeignSession) (hasHandle : Bool) (b : BufferArgument) :
    Passed ConstantRecord :=
  s.items hasHandle b fun p => .ok (p.shader.specRecords.map fun c =>
    ⟨c.id, c.kind.number, c.value⟩)

def errors (s : ForeignSession) (hasHandle : Bool) (b : BufferArgument) : Passed Nat :=
  s.items hasHandle b fun p => .ok (p.errors.diagnostics.map (·.kind.code))

end ForeignSession

def ForeignError.write (e : Option ForeignError) (b : BufferArgument) : Passed UInt8 :=
  b.passFound do
    let some e := e | throw (.invalidParameter "error")
    requireGiven b.hasCell "len"
    pure (terminatedBytes e.message)

/-- What freeing an error comes to: whether there was a place for a handle to free. -/
def ForeignError.free (hasHandle : Bool) : Nat :=
  if hasHandle then 0 else 1

end ShaderPipeline

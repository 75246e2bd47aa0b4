import ShaderPipeline.Cache.Entry

/-!
Compilers: what turns the source of a stage into a binary, and perhaps a binary into text.
-/

set_option autoImplicit false
set_option relaxedAutoImplicit false

namespace ShaderPipeline

inductive CompileError where
  | notInitialized
  | failed (name message : String)
  | cannotRecompile
  deriving DecidableEq, Repr

namespace CompileError

def kind : CompileError → ErrorKind
  | notInitialized => .compilerInit
  | failed _ _ => .compilationFailed
  | cannotRecompile => .recompileUnsupported

def message : CompileError → String
  | notInitialized => "the shader compiler could not be initialized"
  | failed name message => s!"compilation of {name} failed: {message}"
  | cannotRecompile => "the compiler does not support recompiling binaries to text"

instance : Reportable CompileError :=
  ⟨kind, message⟩

end CompileError

/-- What a compiler is asked to compile: the source of the stage of an identity. -/
structure CompileRequest where
  identity : Identity
  source : String
  deriving DecidableEq, Repr

def CompileRequest.stage (r : CompileRequest) : StageSet :=
  r.identity.stage

/-- A compiler, whose answers depend on nothing but what it is asked. -/
structure Compiler where
  compile : CompileRequest → Except CompileError Binary
  /-- The text of a binary of a stage. -/
  recompile : StageSet → Binary → Except CompileError String

end ShaderPipeline

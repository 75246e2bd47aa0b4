import ShaderPipeline.Catalog.Basic
import ShaderPipeline.Compiler.Basic
import ShaderPipeline.Shader.Collation
import ShaderPipeline.Source.Error

/-!
Errors of the processing of shaders.
-/

set_option autoImplicit false
set_option relaxedAutoImplicit false

namespace ShaderPipeline

/-- Why a stage or a shader could not be processed. -/
inductive PackError where
  | shaderNotFound (name : String)
  | aborted (shader : String) (diagnostic : Diagnostic)
  | catalog (error : CatalogError)
  | source (error : SourceError)
  | compile (error : CompileError)
  | reflection (error : ReflectError)
  | collation (error : CollateError)
  | cache (error : CacheError)
  deriving DecidableEq, Repr

namespace PackError

/-- The kind of a processing error; errors of the parts keep theirs. -/
def kind : PackError → ErrorKind
  | shaderNotFound _ => .stageNotFound
  | aborted _ _ => .stageFailed
  | catalog error => error.kind
  | source error => error.kind
  | compile error => error.kind
  | reflection error => error.kind
  | collation error => error.kind
  | cache error => error.kind

def message : PackError → String
  | shaderNotFound name => s!"the shader group `{name}` was not found"
  | aborted shader diagnostic => s!"processing `{shader}` was aborted: {diagnostic.display}"
  | catalog error => s!"catalog error: {error.message}"
  | source error => s!"source generation error: {error.message}"
  | compile error => s!"compilation error: {error.message}"
  | reflection error => s!"reflection error: {error.message}"
  | collation error => s!"collation error: {error.message}"
  | cache error => s!"cache error: {error.message}"

instance : Reportable PackError :=
  ⟨kind, message⟩

end PackError

end ShaderPipeline

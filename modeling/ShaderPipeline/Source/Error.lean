import ShaderPipeline.Cache.Error
import ShaderPipeline.Descriptor

/-!
Errors of source generation.
-/

set_option autoImplicit false
set_option relaxedAutoImplicit false

namespace ShaderPipeline

/-- Why the source of a stage could not be generated. -/
inductive SourceError where
  | missingBody (path : Path)
  | missingInclude (name : String) (includer : Path)
  | includesTooDeep (path : Path)
  | groupNotFound (group : String)
  | undeclarable (group resource : String) (kind : DescriptorKind)
  | malformedDirective (line : String)
  | unbalancedOverride
  | cache (error : CacheError)
  deriving DecidableEq, Repr

namespace SourceError

/-- The kind of a source error; errors of the cache keep theirs. -/
def kind : SourceError → ErrorKind
  | missingBody _ => .missingBody
  | missingInclude _ _ => .missingInclude
  | includesTooDeep _ => .includeDepthExceeded
  | groupNotFound _ => .resourceGroupNotFound
  | undeclarable _ _ _ => .invalidDescriptorKind
  | malformedDirective _ => .malformedDirective
  | unbalancedOverride => .unterminatedInterfaceOverride
  | cache error => error.kind

def message : SourceError → String
  | missingBody path => s!"the body file {path.display} does not exist"
  | missingInclude name includer => s!"the include `{name}` in {includer.display} was not found"
  | includesTooDeep path => s!"includes nested too deeply in {path.display}"
  | groupNotFound group => s!"the resource group `{group}` was not found"
  | undeclarable group resource kind =>
      s!"the resource `{group}.{resource}` has kind {kind.name} which cannot be declared"
  | malformedDirective line => s!"malformed directive `{line}`"
  | unbalancedOverride => "unterminated interface override region"
  | cache error => s!"cache or filesystem error: {error.message}"

instance : Reportable SourceError :=
  ⟨kind, message⟩

def ofBodyAccess (path : Path) : CacheError → SourceError
  | .pathMissing _ => .missingBody path
  | error => .cache error

end SourceError

end ShaderPipeline

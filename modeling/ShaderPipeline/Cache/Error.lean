import ShaderPipeline.Diagnostic
import ShaderPipeline.FileTree
import ShaderPipeline.Stage

/-!
Errors of the source cache, of the binary store, and of files read on their behalf.
-/

set_option autoImplicit false
set_option relaxedAutoImplicit false

namespace ShaderPipeline

/-- What an operation on a cache entry found missing. -/
inductive BatchFault where
  | noBodyPath
  | noBody
  | noFullSource
  | noBinary
  | noEntry
  deriving DecidableEq, Repr

def BatchFault.message : BatchFault → String
  | noBodyPath => "no body path registered"
  | noBody => "no body cached"
  | noFullSource => "no full source cached"
  | noBinary => "no binary cached"
  | noEntry => "no entry"

/-- Why the cache, the store or a file did not do what was asked. -/
inductive CacheError where
  | pathMissing (path : Path)
  | openFailed (path : Path) (fault : FileFault)
  | binaryMissing (identity : Identity)
  | batchFailed (step : Nat) (identity : Identity) (fault : BatchFault)
  | storeFailed
  deriving DecidableEq, Repr

namespace CacheError

def kind : CacheError → ErrorKind
  | pathMissing _ => .pathMissing
  | openFailed _ _ => .openFailed
  | binaryMissing _ => .cacheEntryMissing
  | batchFailed _ _ _ => .batchFailed
  | storeFailed => .persistentStore

def message : CacheError → String
  | pathMissing path => s!"the path {path.display} does not exist"
  | openFailed path fault => s!"the path {path.display} could not be opened: {fault.message}"
  | binaryMissing identity => s!"no cached binary for stage {identity.display}"
  | batchFailed step identity fault =>
      s!"cache batch failed at step {step} for stage {identity.display}: {fault.message}"
  | storeFailed => "persistent cache error"

instance : Reportable CacheError :=
  ⟨kind, message⟩

def ofFault (path : Path) : FileFault → CacheError
  | .missing => .pathMissing path
  | fault => .openFailed path fault

end CacheError

namespace FileTree

def modificationTime (files : FileTree) (path : Path) : Except CacheError Int :=
  (files.modified path).mapError (CacheError.ofFault path)

/-- The text of the file at a path, or why it cannot be read. -/
def readText (files : FileTree) (path : Path) : Except CacheError String :=
  (files.text path).mapError (CacheError.ofFault path)

end FileTree

end ShaderPipeline

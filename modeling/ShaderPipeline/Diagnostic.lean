/-!
Kinds of errors, diagnostics, and sessions that collect diagnostics.

The code of a kind tells in its thousands which part of the pipeline raises it.  Two kinds are fatal:
they stop the whole pipeline and not only the stage they concern.
-/

set_option autoImplicit false
set_option relaxedAutoImplicit false

namespace ShaderPipeline

inductive ErrorKind where
  | catalogParse | catalogMissingSection | catalogDuplicateName | catalogInvalidValue | catalogIo
  | missingBody | missingInclude | resourceGroupNotFound | invalidDescriptorKind
  | includeDepthExceeded | malformedDirective | unterminatedInterfaceOverride | compilerInit
  | compilationFailed | recompileUnsupported | invalidBinary | invalidDescriptorType
  | duplicateDescriptorType | invalidBindingIndex | bindingMismatch | unsupportedSpecConstant
  | multiplePushConstantBlocks | descriptorConflict | stageAlreadyParsed | pushConstantOverflow
  | pathMissing | openFailed | cacheEntryMissing | batchFailed | persistentStore | stageNotFound
  | stageFailed | stageWithheld
  deriving DecidableEq, Repr

namespace ErrorKind

def all : List ErrorKind :=
  [catalogParse, catalogMissingSection, catalogDuplicateName, catalogInvalidValue, catalogIo,
    missingBody, missingInclude, resourceGroupNotFound, invalidDescriptorKind,
    includeDepthExceeded, malformedDirective, unterminatedInterfaceOverride, compilerInit,
    compilationFailed, recompileUnsupported, invalidBinary, invalidDescriptorType,
    duplicateDescriptorType, invalidBindingIndex, bindingMismatch, unsupportedSpecConstant,
    multiplePushConstantBlocks, descriptorConflict, stageAlreadyParsed, pushConstantOverflow,
    pathMissing, openFailed, cacheEntryMissing, batchFailed, persistentStore, stageNotFound,
    stageFailed, stageWithheld]

def code : ErrorKind → Nat
  | catalogParse => 1000
  | catalogMissingSection => 1001
  | catalogDuplicateName => 1002
  | catalogInvalidValue => 1003
  | catalogIo => 1004
  | missingBody => 2000
  | missingInclude => 2001
  | resourceGroupNotFound => 2002
  | invalidDescriptorKind => 2003
  | includeDepthExceeded => 2004
  | malformedDirective => 2005
  | unterminatedInterfaceOverride => 2006
  | compilerInit => 3000
  | compilationFailed => 3001
  | recompileUnsupported => 3002
  | invalidBinary => 4000
  | invalidDescriptorType => 4001
  | duplicateDescriptorType => 4002
  | invalidBindingIndex => 4003
  | bindingMismatch => 4004
  | unsupportedSpecConstant => 4005
  | multiplePushConstantBlocks => 4006
  | descriptorConflict => 4007
  | stageAlreadyParsed => 4008
  | pushConstantOverflow => 4009
  | pathMissing => 5000
  | openFailed => 5001
  | cacheEntryMissing => 5002
  | batchFailed => 5003
  | persistentStore => 5004
  | stageNotFound => 6000
  | stageFailed => 6001
  | stageWithheld => 6002

def name : ErrorKind → String
  | catalogParse => "CatalogParse"
  | catalogMissingSection => "CatalogMissingSection"
  | catalogDuplicateName => "CatalogDuplicateName"
  | catalogInvalidValue => "CatalogInvalidValue"
  | catalogIo => "CatalogIo"
  | missingBody => "MissingBody"
  | missingInclude => "MissingInclude"
  | resourceGroupNotFound => "ResourceGroupNotFound"
  | invalidDescriptorKind => "InvalidDescriptorKind"
  | includeDepthExceeded => "IncludeDepthExceeded"
  | malformedDirective => "MalformedDirective"
  | unterminatedInterfaceOverride => "UnterminatedInterfaceOverride"
  | compilerInit => "CompilerInit"
  | compilationFailed => "CompilationFailed"
  | recompileUnsupported => "RecompileUnsupported"
  | invalidBinary => "InvalidBinary"
  | invalidDescriptorType => "InvalidDescriptorType"
  | duplicateDescriptorType => "DuplicateDescriptorType"
  | invalidBindingIndex => "InvalidBindingIndex"
  | bindingMismatch => "BindingMismatch"
  | unsupportedSpecConstant => "UnsupportedSpecConstant"
  | multiplePushConstantBlocks => "MultiplePushConstantBlocks"
  | descriptorConflict => "DescriptorConflict"
  | stageAlreadyParsed => "StageAlreadyParsed"
  | pushConstantOverflow => "PushConstantOverflow"
  | pathMissing => "PathMissing"
  | openFailed => "OpenFailed"
  | cacheEntryMissing => "CacheEntryMissing"
  | batchFailed => "BatchFailed"
  | persistentStore => "PersistentStore"
  | stageNotFound => "StageNotFound"
  | stageFailed => "StageFailed"
  | stageWithheld => "StageWithheld"

def ofName? (word : String) : Option ErrorKind :=
  all.find? (·.name == word)

def partition (k : ErrorKind) : Nat :=
  k.code / 1000

def isFatal : ErrorKind → Bool
  | catalogMissingSection | bindingMismatch => true
  | _ => false

def display (k : ErrorKind) : String :=
  s!"{k.name} ({k.code})"

end ErrorKind

/-- An error type whose values have a kind and a text; the text of an error that has a cause goes on with
the text of the cause. -/
class Reportable (ε : Type) where
  kind : ε → ErrorKind
  message : ε → String

structure Diagnostic where
  kind : ErrorKind
  message : String
  deriving DecidableEq, Repr

namespace Diagnostic

def ofError {ε : Type} [Reportable ε] (e : ε) : Diagnostic :=
  ⟨Reportable.kind e, Reportable.message e⟩

def display (d : Diagnostic) : String :=
  s!"[{d.kind.display}] {d.message}"

end Diagnostic

/-- The errors reported during one unit of work, in order. -/
structure Session where
  diagnostics : List Diagnostic
  deriving DecidableEq, Repr

namespace Session

def empty : Session :=
  ⟨[]⟩

def add (s : Session) (d : Diagnostic) : Session :=
  ⟨s.diagnostics ++ [d]⟩

def report {ε : Type} [Reportable ε] (s : Session) (e : ε) : Session :=
  s.add (.ofError e)

/-- Reports the error of a failed result; the value of any other passes through. -/
def check {ε α : Type} [Reportable ε] (s : Session) : Except ε α → Session × Option α
  | .ok a => (s, some a)
  | .error e => (s.report e, none)

def merge (s other : Session) : Session :=
  ⟨s.diagnostics ++ other.diagnostics⟩

def length (s : Session) : Nat :=
  s.diagnostics.length

def isEmpty (s : Session) : Bool :=
  s.diagnostics.isEmpty

def firstFatal? (s : Session) : Option Diagnostic :=
  s.diagnostics.find? (·.kind.isFatal)

def hasFatal (s : Session) : Bool :=
  s.diagnostics.any (·.kind.isFatal)

def contains (s : Session) (k : ErrorKind) : Bool :=
  s.diagnostics.any (·.kind == k)

end Session

end ShaderPipeline

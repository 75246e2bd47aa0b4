import ShaderPipeline.Pack.Basic

/-!
Errors of the interface for callers that hold handles and pass buffers.
-/

set_option autoImplicit false
set_option relaxedAutoImplicit false

namespace ShaderPipeline

inductive ForeignError where
  | invalidParameter (name : String)
  | invalidText
  | bufferTooSmall (needed capacity : Nat)
  | notFound
  | pack (error : PackError)
  deriving DecidableEq, Repr

namespace ForeignError

/-- The number by which callers tell errors apart: errors of the pipeline have the code of their kind. -/
def number : ForeignError → Nat
  | invalidParameter _ => 1
  | invalidText => 2
  | bufferTooSmall _ _ => 3
  | notFound => 4
  | pack error => error.kind.code

/-- The kind of an error of the pipeline; if the processing of a shader was aborted, that of the cause. -/
def kind? : ForeignError → Option ErrorKind
  | pack (.aborted _ diagnostic) => some diagnostic.kind
  | pack error => some error.kind
  | _ => none

/-- The code of the kind of an error, or zero. -/
def kindCode (e : ForeignError) : Nat :=
  (e.kind?.map ErrorKind.code).getD 0

/-- The number of what a handle to an error stands for; a null handle has none, which shows as zero. -/
def numberOf (handle : Option ForeignError) : Nat :=
  (handle.map number).getD 0

/-- The code of the kind of what a handle to an error stands for, or zero. -/
def kindCodeOf (handle : Option ForeignError) : Nat :=
  (handle.map kindCode).getD 0

def message : ForeignError → String
  | invalidParameter name => s!"the parameter `{name}` was null or invalid"
  | invalidText => "the string was not valid UTF-8"
  | bufferTooSmall needed capacity =>
      s!"the output buffer holds {capacity} elements but {needed} are required"
  | notFound => "the requested item does not exist"
  | pack error => error.message

end ForeignError

end ShaderPipeline

import ShaderPipeline.Compiler.Basic

/-!
Compilers that are given as callbacks.

A callback is called twice for a source: first for the length of the binary, then with a buffer of that length
to fill.  Either call may report an error.  A source that holds a NUL cannot be handed to a callback.
-/

set_option autoImplicit false
set_option relaxedAutoImplicit false

namespace ShaderPipeline

/-- What a callback leaves of the buffer it fills: the words, and the length it reports. -/
structure FilledBuffer where
  words : List UInt32
  length : Nat
  deriving DecidableEq, Repr

/-- A compile callback, which is told the bits of the stage and the source. -/
structure CompileCallback where
  /-- The length of the binary, unless the callback reports an error. -/
  query : UInt32 → String → Option Nat
  /-- What a buffer of a given length holds afterwards, unless the callback reports an error. -/
  fill : UInt32 → String → Nat → Option FilledBuffer

inductive CallbackCall where
  | query (stage : UInt32)
  | fill (stage : UInt32)
  deriving DecidableEq, Repr

def CallbackCall.display : CallbackCall → String
  | query stage => s!"{stage}:query"
  | fill stage => s!"{stage}:fill"

namespace CompileCallback

def hasNul (source : String) : Bool :=
  source.toList.any (·.toNat == 0)

def failure (r : CompileRequest) (message : String) : CompileError :=
  .failed r.identity.display message

def callbackFailed (r : CompileRequest) : CompileError :=
  failure r "the compile callback reported an error"

/-- The binary that a callback gives: the words of the buffer up to the length that it reports. -/
def compile (c : CompileCallback) (r : CompileRequest) : Except CompileError Binary := do
  if hasNul r.source then throw (failure r "the source contains a NUL byte")
  let some length := c.query r.stage.bits r.source | throw (callbackFailed r)
  let some filled := c.fill r.stage.bits r.source length | throw (callbackFailed r)
  pure ((filled.words.take length).take filled.length)

def calls (c : CompileCallback) (r : CompileRequest) : List CallbackCall :=
  if hasNul r.source then []
  else if (c.query r.stage.bits r.source).isNone then [.query r.stage.bits]
  else [.query r.stage.bits, .fill r.stage.bits]

def compiler (c : CompileCallback) : Compiler :=
  ⟨c.compile, fun _ _ => .error .cannotRecompile⟩

end CompileCallback

end ShaderPipeline
